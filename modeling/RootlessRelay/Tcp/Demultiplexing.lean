import RootlessRelay.Tcp.Session

/-!
# Which connection a segment reaches

A connection has four addresses, and the keys of the two maps have three and one
of them: `tcpConnections` leaves out the address of the VM,
`reverseTcpConnections` everything but the port of the relay. A segment of
another endpoint of the VM can reach the connection.

A four-tuple is demultiplexed in a state of the session exactly if what its key
finds, if anything, is the connection with these addresses. Both directions are
proved, the second with a reset, which ends whatever it finds.
-/

namespace RootlessRelay

namespace TcpSession

variable {cfg : Settings} {turn : Turn} {s : TcpSession} {id : ConnId} {held : Held} {flow : Tuple}

/-- No segment with the addresses of `flow` has an effect on a connection with
others. -/
def Demultiplexes (cfg : Settings) (s : TcpSession) (flow : Tuple) : Prop :=
  ∀ turn isn seg, VMSegment.flow seg = flow → ∀ id held, s.objects id = some held →
    held.conn.tx ≠ flow → (s.receive cfg turn isn seg).1.objects id = some held

/-- What the key of the addresses finds has those addresses. -/
def KeyFinds (cfg : Settings) (s : TcpSession) (flow : Tuple) : Prop :=
  ∀ id held, s.find (flow.mapKey cfg) = some id → s.objects id = some held → held.conn.tx = flow

theorem flow_mapKey (cfg : Settings) (seg : VMSegment) : seg.flow.mapKey cfg =
    if seg.dstIP = cfg.gatewayIP then .reverseTcp seg.dstPort
    else .tcp { srcPort := seg.srcPort, dstIP := seg.dstIP, dstPort := seg.dstPort } := rfl

/-- A segment is handled by the connection that its key finds. -/
theorem receive_found (h : Sound s) {isn : Seq} {seg : VMSegment}
    (hfind : s.find (seg.flow.mapKey cfg) = some id) (hheld : s.objects id = some held) :
    s.receive cfg turn isn seg = s.act id 0 fun c => c.onSegment cfg turn seg := by
  obtain ⟨held', hheld', -, hkey⟩ := h.entries _ id hfind
  obtain rfl := Option.some.inj (hheld.symm.trans hheld')
  obtain ⟨hreverse, houtbound⟩ := direction_of_mapKey hkey
  rw [flow_mapKey] at hfind hreverse houtbound
  unfold receive
  by_cases hgateway : seg.dstIP = cfg.gatewayIP
  · rw [if_pos hgateway] at hfind hreverse
    have hdir : (held.conn.lend s.rateLimiter).direction = .reverse := hreverse _ rfl
    simp only [if_pos hgateway, handleReverseTCP, hfind]
    refine act_congr hheld ?_
    unfold Conn.onSegment
    rw [hdir]
  · rw [if_neg hgateway] at hfind houtbound
    have hdir : (held.conn.lend s.rateLimiter).direction = .outbound := houtbound _ rfl
    simp only [if_neg hgateway, handleTCP, hfind]
    refine act_congr hheld ?_
    unfold Conn.onSegment
    rw [hdir]

/-- Where its key finds nothing, a segment can open a connection, and do nothing
else. -/
theorem receive_unfound {isn : Seq} {seg : VMSegment}
    (hfind : s.find (seg.flow.mapKey cfg) = none) :
    s.receive cfg turn isn seg = (s, none) ∨
      s.receive cfg turn isn seg = s.add (Conn.outboundConn cfg s.rateLimiter seg isn) fun c =>
        Conn.openOutbound cfg c.rateLimiter seg isn := by
  rw [flow_mapKey] at hfind
  unfold receive
  by_cases hgateway : seg.dstIP = cfg.gatewayIP
  · rw [if_pos hgateway] at hfind
    simp only [if_pos hgateway, handleReverseTCP, hfind]
    exact .inl trivial
  · rw [if_neg hgateway] at hfind
    simp only [if_neg hgateway, handleTCP, hfind]
    split
    · exact .inr rfl
    · exact .inl rfl

/-- Every other connection is left as it is. -/
theorem objects_receive (h : Sound s) {isn : Seq} {seg : VMSegment} (hheld : s.objects id = some held)
    (hother : s.find (seg.flow.mapKey cfg) ≠ some id) :
    (s.receive cfg turn isn seg).1.objects id = some held := by
  cases hfind : s.find (seg.flow.mapKey cfg) with
  | some id' =>
      have hne : id ≠ id' := fun hsame => hother (hsame ▸ hfind)
      obtain ⟨held', hheld', -⟩ := h.entries _ id' hfind
      rw [receive_found h hfind hheld', objects_act hne, hheld]
  | none =>
      have hnew : id ≠ s.nextConn := Nat.ne_of_lt (h.fresh id held hheld)
      obtain hnothing | hopens := @receive_unfound cfg turn s isn seg hfind
      · rw [hnothing, hheld]
      · rw [hopens, objects_add hnew, hheld]

/-- Both handlers end the connection that a reset reaches, in any state. -/
theorem onSegment_reset (turn : Turn) (c : Conn) {seg : VMSegment} (hsyn : seg.syn = false)
    (hrst : seg.rst = true) : ∃ c', c.onSegment cfg turn seg = .ok c' ∧ c'.registered = false := by
  unfold Conn.onSegment
  cases hdir : c.direction with
  | outbound =>
      dsimp only
      rw [Conn.handleTCP, if_neg (by simp [hsyn]), if_pos hrst]
      exact ⟨_, rfl, Conn.abortTCPConnection_registered turn hdir false⟩
  | reverse =>
      dsimp only
      rw [Conn.handleReverseTCP]
      dsimp only
      rw [if_pos hrst]
      exact ⟨_, rfl, @Conn.abortReverseConnection_registered cfg { c with idleTimer := true } turn
        hdir false⟩

/-- A reset with the addresses of `flow`. -/
def resetSegment (flow : Tuple) : VMSegment where
  srcIP := flow.dstIP
  srcPort := flow.dstPort.toNat
  dstIP := flow.srcIP
  dstPort := flow.srcPort
  seqNum := 0
  rst := true
  payload := []
  payload_fits := VMSegment.empty_fits

theorem resetSegment_flow (hport : 0 ≤ flow.dstPort) : (resetSegment flow).flow = flow := by
  obtain ⟨srcPort, dstPort, srcIP, dstIP⟩ := flow
  unfold VMSegment.flow resetSegment
  dsimp only
  rw [Int.toNat_of_nonneg hport]

/-- Whatever a reset finds is gone afterwards. -/
theorem receive_reset (h : Sound s) (hport : 0 ≤ flow.dstPort) (turn : Turn) (isn : Seq)
    (hfind : s.find (flow.mapKey cfg) = some id) (hheld : s.objects id = some held) :
    (s.receive cfg turn isn (resetSegment flow)).1.objects id ≠ some held := by
  have hreg : held.conn.registered = true := h.find_registered hfind held hheld
  obtain ⟨c, hreset, hgone⟩ := @onSegment_reset cfg turn (held.conn.lend s.rateLimiter)
    (resetSegment flow) rfl rfl
  have hflow : s.find ((resetSegment flow).flow.mapKey cfg) = some id := by
    rwa [resetSegment_flow hport]
  rw [receive_found h hflow hheld, act_eq hheld hreset]
  dsimp only
  rw [objects_put, if_pos rfl]
  intro hsame
  have hconn := congrArg (fun held : Held => held.conn.registered) (Option.some.inj hsame)
  dsimp only at hconn
  rw [hgone, hreg] at hconn
  cases hconn

/-- Whether segments with these addresses stay away from the connections with
others: exactly if their key finds none of those. A segment has a port of the VM
that is one. -/
theorem demultiplexes_iff (h : Reachable cfg s) (flow : Tuple) (hport : 0 ≤ flow.dstPort) :
    Demultiplexes cfg s flow ↔ KeyFinds cfg s flow := by
  constructor
  · intro hframes id held hfind hheld
    by_contra hother
    exact receive_reset h.sound hport {} 0 hfind hheld
      (hframes {} 0 (resetSegment flow) (resetSegment_flow hport) id held hheld hother)
  · intro hfinds turn isn seg hflow id held hheld hother
    refine objects_receive h.sound hheld fun hfind => ?_
    rw [hflow] at hfind
    exact hother (hfinds id held hfind hheld)

/-- A session after one call of `createTCPConnection`. -/
def connected (cfg : Settings) : TcpSession :=
  ((start 0x0a00020f#32 Conn.exampleReverse.rateLimiter).createTCPConnection cfg 30000 80 7#32).1

theorem reachable_connected : Reachable {} (connected {}) := by
  have hstep : Step {} (start 0x0a00020f#32 Conn.exampleReverse.rateLimiter)
      ({}, .connect 30000 80 7#32) (connected {}) := ⟨trivial, rfl⟩
  exact ⟨_, _, [({}, .connect 30000 80 7#32)], .single hstep⟩

/-- Addresses of the connection, but for the port of the VM. -/
def connectedFlow (vmPort : Port) : Tuple :=
  { srcPort := 30000, dstPort := vmPort, srcIP := 0x0a000202#32, dstIP := 0x0a00020f#32 }

theorem exists_connected : ∃ held, (connected {}).objects 0 = some held ∧
    held.conn.tx = connectedFlow 80 ∧ (connected {}).find (.reverseTcp 30000) = some 0 :=
  ⟨_, rfl, rfl, rfl⟩

theorem demultiplexes_iff_connected :
    Demultiplexes {} (connected {}) (connectedFlow 80) ↔ KeyFinds {} (connected {}) (connectedFlow 80) :=
  demultiplexes_iff reachable_connected (connectedFlow 80) (by decide)

/-- A reset of port 81 of the VM ends the connection with port 80. -/
theorem stray_reset : Reachable {} (connected {}) ∧
    (∃ held, (connected {}).objects 0 = some held ∧ held.conn.tx = connectedFlow 80) ∧
    ¬Demultiplexes {} (connected {}) (connectedFlow 81) := by
  obtain ⟨held, hheld, htx, hfind⟩ := exists_connected
  refine ⟨reachable_connected, ⟨held, hheld, htx⟩, fun hframes => ?_⟩
  have hother : held.conn.tx ≠ connectedFlow 81 := by
    rw [htx]
    decide
  have hkey : (connected {}).find ((connectedFlow 81).mapKey {}) = some 0 := hfind
  exact receive_reset reachable_connected.sound (by decide) {} 0 hkey hheld
    (hframes {} 0 (resetSegment (connectedFlow 81)) rfl 0 held hheld hother)

end TcpSession

end RootlessRelay
