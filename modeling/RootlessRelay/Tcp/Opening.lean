import RootlessRelay.Tcp.Timeout

/-!
# Opening a connection

Both ways of opening a connection put one segment with a SYN into sequence space, and what
they leave behind is live. They return exactly where the settings of the retransmission timer
are accepted and the fields of that segment hold their values: the window of a SYN-ACK, and
the port a SYN of the relay goes to.

An opening that throws has registered the connection all the same. It is in its map with
a handshake that nothing will repeat.
-/

namespace RootlessRelay

open SequenceSpace SendStream

namespace Conn

variable {cfg : Settings}

/-- A connection record whose sending side is new: nothing sent, queued or
acknowledged. -/
structure Fresh (cfg : Settings) (c : Conn) (isn : Seq) : Prop where
  send : ∃ vmWindow sendMss, c.send = initializeRetransmission cfg isn isn vmWindow sendMss ∧
    (c.direction = .outbound → vmWindow ≤ 65535)
  state : c.state = .synSent
  registered : c.registered = true

/-- The first segment, a SYN without payload, makes a new connection live. The
SYN is outstanding, so its timer runs. -/
theorem Fresh.live {c : Conn} {isn : Seq} {flags : Flags} (h : Fresh cfg c isn)
    (hsyn : flags.syn = true) (hfin : flags.fin = false) :
    Live cfg (c.transmit cfg [] flags) := by
  obtain ⟨vmWindow, sendMss, hsend, hwindow⟩ := h.send
  have hitems : itemsOf [] flags = [.syn] := by simp [itemsOf, hsyn, hfin]
  have hlen : sequenceLength [] flags = 1 := by simp [sequenceLength, hsyn, hfin]
  have hne : itemsOf [] flags ≠ [] := by simp [hitems]
  generalize hq : RetransmissionQueue.new isn cfg.rtoInitialMs cfg.rtoMaxMs
    cfg.rtoMaxRetransmissions = q
  have hqueue : c.send.retransmission = q := by rw [hsend, ← hq]; rfl
  have hwell : q.WellTracked := hq ▸ RetransmissionQueue.new_wellTracked isn _ _ _
  have hopen : q.closed = false ∧ q.exhausted = false ∧ q.sndNxt = isn ∧ q.sndUna = isn ∧
      q.items = [] ∧ q.payloadBytesInFlight = 0 := by
    rw [← hq]
    exact ⟨rfl, rfl, rfl, rfl, rfl, rfl⟩
  obtain ⟨hclosed, hexhausted, hnxt, huna, hnone, hfly⟩ := hopen
  have htimer : q.TimerExact := by
    rw [← hq]
    simp [RetransmissionQueue.TimerExact, RetransmissionQueue.WantsTimer, RetransmissionQueue.new]
  have hrelay : c.send.relaySeq = isn := by rw [hsend]; rfl
  have hafter : (c.transmit cfg [] flags).send.retransmission = q.tracked ⟨isn, [], flags⟩ := by
    simp only [transmit, hqueue, hrelay]
  have hacked : c.send.acknowledged = [] := by rw [hsend]; rfl
  have hfresh : (c.transmit cfg [] flags).stream = ⟨[], [.syn], [], [], false⟩ := by
    simp only [stream, hafter, RetransmissionQueue.tracked_items, hnone, hitems]
    simp only [transmit, hsend]
    rfl
  have hsending : (c.transmit cfg [] flags).Sending cfg := {
    opened := by rw [hafter, RetransmissionQueue.tracked_closed, hclosed]
    live := by rw [hafter, RetransmissionQueue.tracked_exhausted, hexhausted]
    notClosed := by
      change c.state ≠ _
      rw [h.state]
      decide
    tracked := by
      rw [hafter]
      exact hwell.tracked hnxt.symm hne
    acked := by
      rw [hafter, RetransmissionQueue.tracked_sndUna, huna, hfresh]
      change isn = position c.send.relayIsn 0
      rw [position_zero, hsend]
      rfl
    next := by
      rw [hafter, RetransmissionQueue.tracked_sndNxt, hnxt]
      change c.send.relaySeq + _ = _
      rw [hrelay]
    queueBytes := by
      change c.send.sendQueueBytes = c.send.sendQueue.flatten.length
      rw [hsend]
      rfl
    chunks := by
      change [] ∉ c.send.sendQueue
      rw [hsend]
      simp [initializeRetransmission]
    conserved := by
      rw [hfresh]
      rfl
    synFirst := ⟨[], by rw [hfresh]; rfl, by simp⟩
    finTracked := by
      rw [hfresh]
      change _ ↔ c.send.finSent = true
      rw [hsend]
      simp [State.history, initializeRetransmission]
    finBudget := by
      rw [hfresh]
      change _ + c.send.pendingFin.toNat ≤ _
      rw [hsend]
      exact Nat.zero_le _
    finOutstanding := by
      rw [hfresh]
      exact Nat.zero_le _
    inFlight := by
      rw [hafter, RetransmissionQueue.tracked_payloadBytesInFlight, hfly]
      exact Nat.zero_le _
    window := by
      rintro (hdir | hs)
      · change c.send.vmWindow ≤ 65535
        rw [hsend]
        exact hwindow hdir
      · exact absurd h.state hs
    handshake := fun _ => by
      rw [hfresh]
      rfl
    synAcked := fun hs => absurd h.state hs
    cwnd := by
      intro hpos
      change 1 ≤ c.send.congestionWindow
      rw [hsend]
      have hclamped := cfg.cwnd_clamped
      exact Nat.le_min.mpr ⟨by omega, hpos⟩
    recovery := by
      intro r hr
      change c.send.congestionRecoveryUntil = some r at hr
      rw [hsend] at hr
      cases hr
    pacer := by
      change c.send.pacer.TimerExact
      rw [hsend]
      exact Pacer.new_timerExact cfg
    paused := by
      change c.send.sendSourcePaused = true → _
      rw [hsend]
      rintro ⟨⟩ }
  have hseg : (c.transmit cfg [] flags).send.retransmission.segments ≠ [] := by
    rw [hafter]
    exact RetransmissionQueue.tracked_segments_ne_nil
  refine ⟨⟨h.registered, hsending, ?_, ?_, fun _ => ⟨?_, ?_⟩⟩, fun _ => .inl hseg, fun _ => hseg⟩
  · rw [hafter]
    exact htimer.tracked hclosed hexhausted hnxt.symm hne
  · change c.send.sending = false
    rw [hsend]
    rfl
  · change c.send.localClosed = false
    rw [hsend]
    rfl
  · rw [hfresh]
    exact ⟨fun _ => by simp [State.history, itemFormat], by rintro ⟨⟩⟩

/-- The constructor of the queue throws for every setting that is not accepted. -/
theorem rtoRefusal_eq_none_iff : rtoRefusal cfg = none ↔ cfg.RtoAccepted := by
  unfold rtoRefusal RetransmissionQueue.refusal Settings.RtoAccepted
  constructor
  · intro h
    split at h
    · cases h
    rename_i hrange
    split at h
    · cases h
    · omega
  · rintro ⟨⟨hpos, hle⟩, hretransmissions⟩
    rw [if_neg (by omega), if_neg (by omega)]

section Outbound

variable {rateLimiter : SlidingWindowRateLimiter} {seg : VMSegment} {isn : Seq} {c : Conn}

theorem openOutbound_refused {message : String} (h : rtoRefusal cfg = some message) :
    openOutbound cfg rateLimiter seg isn =
      .error ⟨.options message, outboundConn cfg rateLimiter seg isn⟩ := by
  unfold openOutbound
  rw [h]

theorem openOutbound_overflow (h : cfg.RtoAccepted) (hwindow : 0xffff < cfg.tcpWindowSize) :
    openOutbound cfg rateLimiter seg isn =
      .error ⟨.range cfg.tcpWindowSize, outboundConn cfg rateLimiter seg isn⟩ := by
  unfold openOutbound
  rw [rtoRefusal_eq_none_iff.mpr h]
  exact if_pos hwindow

theorem openOutbound_sends (h : cfg.RtoAccepted) (hwindow : cfg.tcpWindowSize ≤ 0xffff) :
    openOutbound cfg rateLimiter seg isn =
      (outboundConn cfg rateLimiter seg isn).sendTrackedTCP cfg []
        { syn := true, ack := true, windowSize := some cfg.tcpWindowSize } (some isn) false := by
  unfold openOutbound
  rw [rtoRefusal_eq_none_iff.mpr h]
  exact if_neg (Nat.not_lt_of_le hwindow)

/-- The SYN-ACK is tracked with `relaySeq` already past it, as if it had been
sent from one before. -/
theorem openOutbound_transmit (h : cfg.RtoAccepted) (hwindow : cfg.tcpWindowSize ≤ 0xffff)
    (rateLimiter : SlidingWindowRateLimiter) (seg : VMSegment) (isn : Seq) :
    openOutbound cfg rateLimiter seg isn = .ok
      (({ outboundConn cfg rateLimiter seg isn with
          send := { (outboundConn cfg rateLimiter seg isn).send with relaySeq := isn } } :
        Conn).transmit cfg []
          { syn := true, ack := true, windowSize := some cfg.tcpWindowSize }) := by
  have htrack := RetransmissionQueue.track_eq_tracked
    (q := RetransmissionQueue.new isn cfg.rtoInitialMs cfg.rtoMaxMs cfg.rtoMaxRetransmissions)
    ⟨isn, [], { syn := true, ack := true, windowSize := some cfg.tcpWindowSize }⟩ rfl rfl rfl
    (by simp [itemsOf])
  have hshort : ([] : Bytes).length ≤ (outboundConn cfg rateLimiter seg isn).tcpMss cfg :=
    Nat.zero_le _
  rw [openOutbound_sends h hwindow]
  unfold sendTrackedTCP
  rw [sendTCP_short cfg hshort]
  simp [outboundConn, initializeRetransmission, sendChunk, sequenceLength, trackAll, htrack,
    transmit, wire, withQueue, tcpReceiveWindow]

/-- An opening that returns has had its queue and its SYN-ACK, so both checks
have been passed. -/
theorem accepted_of_openOutbound (h : openOutbound cfg rateLimiter seg isn = .ok c) :
    cfg.RtoAccepted ∧ cfg.tcpWindowSize ≤ 0xffff := by
  cases hrefusal : rtoRefusal cfg with
  | some message => cases (openOutbound_refused hrefusal).symm.trans h
  | none =>
      have haccepted := rtoRefusal_eq_none_iff.mp hrefusal
      refine ⟨haccepted, Nat.le_of_not_lt fun hwindow => ?_⟩
      cases (openOutbound_overflow haccepted hwindow).symm.trans h

theorem sends_of_openOutbound (h : openOutbound cfg rateLimiter seg isn = .ok c) :
    (outboundConn cfg rateLimiter seg isn).sendTrackedTCP cfg []
      { syn := true, ack := true, windowSize := some cfg.tcpWindowSize } (some isn) false =
        .ok c := by
  obtain ⟨haccepted, hwindow⟩ := accepted_of_openOutbound h
  exact (openOutbound_sends haccepted hwindow).symm.trans h

theorem transmit_of_openOutbound (h : openOutbound cfg rateLimiter seg isn = .ok c) :
    c = ({ outboundConn cfg rateLimiter seg isn with
        send := { (outboundConn cfg rateLimiter seg isn).send with relaySeq := isn } } :
      Conn).transmit cfg []
        { syn := true, ack := true, windowSize := some cfg.tcpWindowSize } := by
  obtain ⟨haccepted, hwindow⟩ := accepted_of_openOutbound h
  exact Except.ok.inj (h.symm.trans (openOutbound_transmit haccepted hwindow rateLimiter seg isn))

theorem openOutbound_ok (h : openOutbound cfg rateLimiter seg isn = .ok c) :
    ∃ c₀ flags, Fresh cfg c₀ isn ∧ flags.syn = true ∧ flags.ack = true ∧ flags.fin = false ∧
      c₀.direction = .outbound ∧ c₀.recv = { vmSeq := seg.seqNum + 1 } ∧
      c = c₀.transmit cfg [] flags :=
  ⟨_, _, ⟨⟨_, _, rfl, fun _ => Nat.le_trans (Nat.min_le_left _ _)
    (Nat.le_of_lt_succ seg.window.isLt)⟩, rfl, rfl⟩, rfl, rfl, rfl, rfl, rfl,
    transmit_of_openOutbound h⟩

/-- A SYN is answered exactly under settings that a queue can be made with and a
window that the SYN-ACK can announce. -/
theorem openOutbound_returns_iff :
    (∃ c, openOutbound cfg rateLimiter seg isn = .ok c) ↔
      cfg.RtoAccepted ∧ cfg.tcpWindowSize ≤ 0xffff := by
  constructor
  · rintro ⟨c, h⟩
    exact accepted_of_openOutbound h
  · rintro ⟨haccepted, hwindow⟩
    exact ⟨_, openOutbound_transmit haccepted hwindow rateLimiter seg isn⟩

end Outbound

section Reverse

variable {rateLimiter : SlidingWindowRateLimiter} {vmIP : IPv4} {srcPort : Port} {port : Int}
  {isn : Seq} {c : Conn}

theorem reverseConn_fresh (cfg : Settings) (rateLimiter : SlidingWindowRateLimiter) (vmIP : IPv4)
    (srcPort : Port) (port : Int) (isn : Seq) :
    Fresh cfg (reverseConn cfg rateLimiter vmIP srcPort port isn) isn :=
  ⟨⟨_, _, rfl, nofun⟩, rfl, rfl⟩

theorem openReverse_refused {message : String} (h : rtoRefusal cfg = some message) :
    openReverse cfg rateLimiter vmIP srcPort port isn =
      .error ⟨.options message, { reverseConn cfg rateLimiter vmIP srcPort port isn with
        idleTimer := false }⟩ := by
  unfold openReverse
  rw [h]

theorem openReverse_overflow (h : cfg.RtoAccepted) (hport : port < 0 ∨ port > 0xffff) :
    openReverse cfg rateLimiter vmIP srcPort port isn =
      .error ⟨.range port, reverseConn cfg rateLimiter vmIP srcPort port isn⟩ := by
  unfold openReverse
  rw [rtoRefusal_eq_none_iff.mpr h]
  exact if_pos hport

theorem openReverse_sends (h : cfg.RtoAccepted) (hport : 0 ≤ port ∧ port ≤ 0xffff) :
    openReverse cfg rateLimiter vmIP srcPort port isn =
      (reverseConn cfg rateLimiter vmIP srcPort port isn).sendTrackedTCP cfg [] { syn := true } none
        true := by
  unfold openReverse
  rw [rtoRefusal_eq_none_iff.mpr h]
  exact if_neg (not_or.mpr ⟨not_lt.mpr hport.1, not_lt.mpr hport.2⟩)

theorem openReverse_transmit (h : cfg.RtoAccepted) (hport : 0 ≤ port ∧ port ≤ 0xffff)
    (rateLimiter : SlidingWindowRateLimiter) (vmIP : IPv4) (srcPort : Port) (isn : Seq) :
    openReverse cfg rateLimiter vmIP srcPort port isn =
      .ok ((reverseConn cfg rateLimiter vmIP srcPort port isn).transmit cfg [] { syn := true }) := by
  rw [openReverse_sends h hport]
  exact sendTrackedTCP_eq cfg rfl rfl rfl (Nat.zero_le _) (by simp [itemsOf]) rfl

theorem accepted_of_openReverse (h : openReverse cfg rateLimiter vmIP srcPort port isn = .ok c) :
    cfg.RtoAccepted ∧ 0 ≤ port ∧ port ≤ 0xffff := by
  cases hrefusal : rtoRefusal cfg with
  | some message => cases (openReverse_refused hrefusal).symm.trans h
  | none =>
      have haccepted := rtoRefusal_eq_none_iff.mp hrefusal
      by_cases hport : port < 0 ∨ port > 0xffff
      · cases (openReverse_overflow haccepted hport).symm.trans h
      · exact ⟨haccepted, by omega⟩

theorem sends_of_openReverse (h : openReverse cfg rateLimiter vmIP srcPort port isn = .ok c) :
    (reverseConn cfg rateLimiter vmIP srcPort port isn).sendTrackedTCP cfg [] { syn := true } none
      true = .ok c := by
  obtain ⟨haccepted, hport⟩ := accepted_of_openReverse h
  exact (openReverse_sends haccepted hport).symm.trans h

theorem transmit_of_openReverse (h : openReverse cfg rateLimiter vmIP srcPort port isn = .ok c) :
    c = (reverseConn cfg rateLimiter vmIP srcPort port isn).transmit cfg [] { syn := true } := by
  obtain ⟨haccepted, hport⟩ := accepted_of_openReverse h
  exact Except.ok.inj (h.symm.trans (openReverse_transmit haccepted hport rateLimiter vmIP srcPort isn))

/-- The relay opens a connection exactly to a port that the field of the header
can hold, if the settings are accepted. -/
theorem openReverse_returns_iff :
    (∃ c, openReverse cfg rateLimiter vmIP srcPort port isn = .ok c) ↔
      cfg.RtoAccepted ∧ 0 ≤ port ∧ port ≤ 0xffff := by
  constructor
  · rintro ⟨c, h⟩
    exact accepted_of_openReverse h
  · rintro ⟨haccepted, hport⟩
    exact ⟨_, openReverse_transmit haccepted hport rateLimiter vmIP srcPort isn⟩

end Reverse

/-- A connection that has just been opened is live and waits for its handshake. -/
theorem Opened.live_synSent {c : Conn} (h : Opened cfg c) : Live cfg c ∧ c.state = .synSent := by
  cases h with
  | outbound hopen =>
      obtain ⟨c₀, flags, hfresh, hsyn, -, hfin, -, -, rfl⟩ := openOutbound_ok hopen
      exact ⟨hfresh.live hsyn hfin, hfresh.state⟩
  | @reverse rateLimiter vmIP srcPort port isn c hopen =>
      have hfresh := reverseConn_fresh cfg rateLimiter vmIP srcPort port isn
      obtain rfl := transmit_of_openReverse hopen
      exact ⟨hfresh.live rfl rfl, hfresh.state⟩

theorem Opened.live {c : Conn} (h : Opened cfg c) : Live cfg c := h.live_synSent.1

/-- Until a FIN is sent there is nothing it could be out of place with. -/
theorem Sending.finLast {c : Conn} (h : c.Sending cfg) (hfin : c.send.finSent = false) :
    c.stream.FinLast itemFormat :=
  ⟨fun _ hmem => absurd (hfin.symm.trans (h.finTracked.mp hmem)) Bool.false_ne_true,
    fun hover => absurd (hfin.symm.trans hover) Bool.false_ne_true⟩

theorem Opened.finLast {c : Conn} (h : Opened cfg c) : c.stream.FinLast itemFormat := by
  obtain ⟨hlive, hs⟩ := h.live_synSent
  refine hlive.sending.finLast (Bool.eq_false_iff.mpr fun hfin => ?_)
  have hmem := hlive.sending.finTracked.mpr hfin
  rw [hlive.sending.handshake hs] at hmem
  simp at hmem

end Conn

end RootlessRelay
