import RootlessRelay.Tcp.Runs

/-!
# How much can be in flight

One iteration of the send loop adds payload to what is in flight only within the
send limit and outside recovery; this needs no invariant. With the invariant it
bounds what a connection past its handshake has outstanding, far below half the
sequence space, so that no acknowledgement of something outstanding is taken for
a stale one or for one of the future.

The bound itself is the window field of the VM, 16 bits without scaling, and one
number for the FIN. That `relaySeq` stays close to `sndUna` is what the
comparisons of the handlers silently rely on.
-/

namespace RootlessRelay

open SequenceSpace

namespace RetransmissionQueue

theorem track_inFlight {q q' : RetransmissionQueue} {sent : SentSegment} {added : Bool}
    (htrack : q.track sent = .ok (q', added)) :
    q'.payloadBytesInFlight ≤ q.payloadBytesInFlight + sent.payload.length := by
  obtain ⟨-, he⟩ | ⟨-, -, -, he⟩ | ⟨-, -, -, -, he⟩ | ⟨-, -, -, -, he⟩ := track_cases q sent
  all_goals rw [he] at htrack
  all_goals cases htrack
  · exact Nat.le_add_right _ _
  · split
    · exact Nat.le_of_eq (armTimer_payloadBytesInFlight _)
    · exact Nat.le_refl _

end RetransmissionQueue

namespace Conn

variable {cfg : Settings} {c c' : Conn}

/-- The payload carried by tracked segments, all together. -/
def payloadBytes (segments : List SentSegment) : Nat :=
  (segments.map fun segment => segment.payload.length).sum

theorem payloadBytes_append (xs ys : List SentSegment) :
    payloadBytes (xs ++ ys) = payloadBytes xs + payloadBytes ys := by
  simp [payloadBytes]

/-- Tracking segments counts their payload and nothing else. -/
theorem trackAll_inFlight {segments : List SentSegment} (h : c.trackAll segments = .ok c') :
    c'.send.retransmission.payloadBytesInFlight ≤
      c.send.retransmission.payloadBytesInFlight + payloadBytes segments := by
  induction segments generalizing c with
  | nil =>
      cases h
      exact Nat.le_refl _
  | cons segment rest ih =>
      unfold trackAll at h
      split at h
      · cases h
      · rename_i q added htrack
        have hone := RetransmissionQueue.track_inFlight htrack
        have hrest := ih h
        simp only [withQueue_retransmission] at hrest
        change _ ≤ _ + (segment.payload.length + payloadBytes rest)
        omega

theorem sendChunk_payloadBytes (cfg : Settings) (c : Conn) (sequence : Seq) (chunk : Bytes)
    (flags : Flags) (advance : Bool) :
    payloadBytes (c.sendChunk cfg sequence chunk flags advance).2.toList ≤ chunk.length := by
  unfold sendChunk
  dsimp only
  split
  · simp [payloadBytes]
  · exact Nat.zero_le _

/-- The loop cuts its payload into chunks and repeats none of it. -/
theorem sendTCPLoop_payloadBytes (cfg : Settings) (mss : Nat) (flags : Flags) (advance : Bool)
    (fuel : Nat) (c : Conn) (sequence : Seq) (isFirst : Bool) (rest : Bytes)
    (segments : List SentSegment) :
    payloadBytes (sendTCPLoop cfg mss flags advance fuel c sequence isFirst rest segments).2 ≤
      payloadBytes segments + rest.length := by
  induction fuel generalizing c sequence isFirst rest segments with
  | zero => exact Nat.le_add_right _ _
  | succ fuel ih =>
      unfold sendTCPLoop
      dsimp only
      have hcut := congrArg List.length (List.take_append_drop mss rest)
      rw [List.length_append] at hcut
      generalize hchunk : c.sendChunk cfg sequence (rest.take mss) _ advance = sent
      have hone : payloadBytes sent.2.toList ≤ (rest.take mss).length := by
        rw [← hchunk]
        exact sendChunk_payloadBytes cfg c _ _ _ _
      split
      · rw [payloadBytes_append]
        omega
      · refine Nat.le_trans (ih _ _ _ _ _) ?_
        rw [payloadBytes_append]
        omega

/-- Sending with tracking puts at most the payload in flight. -/
theorem sendTrackedTCP_inFlight {payload : Bytes} {flags : Flags} {sequence : Option Seq}
    {advance : Bool} (h : c.sendTrackedTCP cfg payload flags sequence advance = .ok c') :
    c'.send.retransmission.payloadBytesInFlight ≤
      c.send.retransmission.payloadBytesInFlight + payload.length := by
  have hsent : payloadBytes (c.sendTCP cfg payload flags sequence advance).2 ≤ payload.length := by
    have hloop := sendTCPLoop_payloadBytes cfg (c.tcpMss cfg) flags advance (payload.length + 1) c
      (sequence.getD c.send.relaySeq) true payload []
    exact Nat.le_trans hloop (Nat.le_of_eq (Nat.zero_add _))
  have hqueue : (c.sendTCP cfg payload flags sequence advance).1.send.retransmission =
      c.send.retransmission := sendTCPLoop_queue cfg _ _ _ _ _ _ _ _ _
  change (c.sendTCP cfg payload flags sequence advance).1.trackAll
    (c.sendTCP cfg payload flags sequence advance).2 = .ok c' at h
  have htracked := trackAll_inFlight h
  rw [hqueue] at htracked
  omega

theorem isTCPCongestionRecoveryActive_queue (c : Conn) :
    c.isTCPCongestionRecoveryActive.1.send.retransmission = c.send.retransmission := by
  obtain ⟨recoveryUntil, he⟩ := isTCPCongestionRecoveryActive_eq c
  rw [he]

/-- A FIN carries no payload. -/
theorem maybeFin_inFlight (h : c.maybeFin cfg = .ok c') :
    c'.send.retransmission.payloadBytesInFlight ≤
      c.send.retransmission.payloadBytesInFlight := by
  rw [maybeFin_eq] at h
  unfold maybeSendFin at h
  split at h
  · cases h
    exact Nat.le_refl _
  · dsimp only at h
    have hqueue := isTCPCongestionRecoveryActive_queue c
    split at h
    · cases h
      exact Nat.le_of_eq (congrArg _ hqueue)
    · have hfin := sendTrackedTCP_inFlight h
      rw [← hqueue]
      exact hfin

/-- Sending from the queue adds what is sent. -/
theorem sendQueued_inFlight {toSend : Nat} (h : c.sendQueued cfg toSend = .ok c') :
    c'.send.retransmission.payloadBytesInFlight ≤
      c.send.retransmission.payloadBytesInFlight + toSend := by
  unfold sendQueued at h
  split at h
  · cases h
  · rename_i chunk queue htake
    have hlen := takeQueuedBytes_length htake
    split at h
    · cases h
    · rename_i c₁ hsend
      have hadded := sendTrackedTCP_inFlight hsend
      cases h
      change c₁.send.retransmission.payloadBytesInFlight ≤ _
      change _ ≤ c.send.retransmission.payloadBytesInFlight + chunk.length at hadded
      omega

/-- From the limiter on, an iteration adds at most what it was told to send. -/
theorem sendStep_inFlight {turn : Turn} {rateLimited goesOn : Bool}
    {cooperativeSegments available toSend : Nat}
    (h : c.sendStep cfg turn rateLimited cooperativeSegments available toSend =
      .ok (c', goesOn)) :
    c'.send.retransmission.payloadBytesInFlight ≤
      c.send.retransmission.payloadBytesInFlight + toSend := by
  unfold sendStep at h
  obtain ⟨rateLimiter, hlimiter⟩ := tryConsume_eq turn c rateLimited toSend
  generalize c.tryConsume turn rateLimited toSend = admission at h hlimiter
  obtain ⟨c₁, admitted⟩ := admission
  obtain rfl : c₁ = _ := hlimiter
  dsimp only at h
  split at h
  · cases h
    exact Nat.le_add_right _ _
  split at h
  · cases h
  · rename_i c₂ hsend
    have hadded := sendQueued_inFlight hsend
    change _ ≤ c.send.retransmission.payloadBytesInFlight + toSend at hadded
    split at h
    · cases h
      exact hadded
    split at h
    · rename_i hlast
      generalize hstop : (c₂.notePacedTCPSegment turn).1.stopSending.maybeFin cfg = outcome at h
      cases outcome with
      | error thrown => cases h
      | ok c₃ =>
          cases h
          exact Nat.le_trans (maybeFin_inFlight hstop) hadded
    split at h
    · cases h
      exact hadded
    · cases h
      exact hadded

/-- An iteration that puts payload in flight runs outside recovery, and stays
within the send limit. -/
theorem drainStep_inFlight {turn : Turn} {rateLimited goesOn : Bool} {cooperativeSegments : Nat}
    (h : c.drainStep cfg turn rateLimited cooperativeSegments = .ok (c', goesOn))
    (hadds : c.send.retransmission.payloadBytesInFlight <
      c'.send.retransmission.payloadBytesInFlight) :
    c.recoveryActive = false ∧
      c'.send.retransmission.payloadBytesInFlight ≤ c.tcpSendLimit cfg := by
  unfold drainStep at h
  split at h
  · cases h
    exact absurd hadds (Nat.lt_irrefl _)
  split at h
  · generalize hstop : c.stopSending.maybeFin cfg = outcome at h
    cases outcome with
    | error thrown => cases h
    | ok c₁ =>
        cases h
        have hsame : _ ≤ c.stopSending.send.retransmission.payloadBytesInFlight :=
          maybeFin_inFlight hstop
        exact absurd hadds (Nat.not_lt.mpr hsame)
  split at h
  · cases h
    exact absurd hadds (Nat.lt_irrefl _)
  · have hactive := isTCPCongestionRecoveryActive_snd c
    have hqueue := isTCPCongestionRecoveryActive_queue c
    generalize c.isTCPCongestionRecoveryActive = recovery at h hactive hqueue
    obtain ⟨c₁, recovering⟩ := recovery
    dsimp only at h hactive hqueue
    generalize hroom : (if recovering = true then 0 else
      c.tcpSendLimit cfg - c.send.retransmission.payloadBytesInFlight) = room at h
    split at h
    · cases h
      change c.send.retransmission.payloadBytesInFlight < c₁.send.retransmission.payloadBytesInFlight
        at hadds
      rw [hqueue] at hadds
      exact absurd hadds (Nat.lt_irrefl _)
    · rename_i hsome
      have hadded := sendStep_inFlight h
      rw [hqueue] at hadded
      rw [← hactive]
      cases recovering with
      | true =>
          simp only [if_true] at hroom
          omega
      | false =>
          simp only [Bool.false_eq_true, if_false] at hroom
          exact ⟨rfl, by omega⟩

/-- Once it is set, the send limit is the smaller of the two windows. -/
theorem tcpSendLimit_eq (cfg : Settings) (c : Conn) (hcwnd : 1 ≤ c.send.congestionWindow) :
    c.tcpSendLimit cfg = min c.send.vmWindow c.send.congestionWindow := by
  unfold tcpSendLimit
  rw [if_neg (by omega)]

/-- The FIN leaves only with room in the window of the VM. -/
theorem maybeSendFin_room (h : c.maybeSendFin cfg = .ok c')
    (hsent : c'.send.finSent ≠ c.send.finSent) :
    c.send.retransmission.payloadBytesInFlight < c.send.vmWindow := by
  unfold maybeSendFin at h
  split at h
  · cases h
    exact absurd rfl hsent
  · rename_i hready
    simp only [Bool.or_eq_true, decide_eq_true_eq, not_or, Nat.not_le] at hready
    exact hready.2

theorem abort_finSent (cfg : Settings) (turn : Turn) (c : Conn) (sendReset : Bool) :
    (c.abort cfg turn sendReset).send.finSent = c.send.finSent := by
  unfold abort abortTCPConnection abortReverseConnection
  dsimp only
  rw [sendTCP_control cfg (.inr rfl), sendTCP_control cfg (.inr rfl)]
  split <;> split
  · rfl
  · split <;> rfl
  · rfl
  · split <;> rfl

theorem onRetransmit_finSent (cfg : Settings) (c : Conn) (segment : Segment) (reason : Reason) :
    (c.onRetransmit cfg segment reason).send.finSent = c.send.finSent := by
  unfold onRetransmit
  split
  · rfl
  · dsimp only
    obtain ⟨wires, hwires⟩ := resend_eq cfg
      (if reason ≠ .windowOpen then c.onTCPCongestionLoss cfg reason else c) segment
    rw [hwires, emit_send]
    split
    · unfold onTCPCongestionLoss
      dsimp only
      split <;> rfl
    · rfl

/-- Outside persist mode a timer callback puts no FIN into sequence space. -/
theorem fireRetransmissionTimer_finSent (cfg : Settings) (turn : Turn) (c : Conn)
    (generation : Nat) (hpersist : c.send.retransmission.persist = false) :
    (c.fireRetransmissionTimer cfg turn generation).send.finSent = c.send.finSent := by
  by_cases hstale : generation ≠ c.send.retransmission.timerGeneration ∨
      c.send.retransmission.closed = true ∨ c.send.retransmission.exhausted = true
  · rw [fireRetransmissionTimer_superseded cfg turn hstale]
    rfl
  · simp only [ne_eq, not_or, Decidable.not_not, Bool.not_eq_true] at hstale
    obtain ⟨rfl, hopen, hlive⟩ := hstale
    rw [fireRetransmissionTimer_live cfg turn hopen hlive]
    unfold onTimeout
    dsimp only [timerStarted, withQueue_retransmission]
    rw [if_neg (by simp [hpersist])]
    split
    · rfl
    split
    · exact abort_finSent cfg turn _ true
    · exact onRetransmit_finSent cfg _ _ _

/-- What the bound on the flight gives for a connection past its handshake.
Every number that is outstanding can be acknowledged. -/
structure FlightBounded (cfg : Settings) (c : Conn) : Prop where
  cwnd : 1 ≤ c.send.congestionWindow
  limit : c.tcpSendLimit cfg = min c.send.vmWindow c.send.congestionWindow
  inFlight : c.send.retransmission.payloadBytesInFlight ≤ 65535
  outstanding : sequenceDistance c.send.retransmission.sndNxt c.send.retransmission.sndUna ≤ 65536
  advances : ∀ ack, 0 < sequenceDistance ack c.send.retransmission.sndUna →
    sequenceDistance ack c.send.retransmission.sndUna ≤
      sequenceDistance c.send.retransmission.sndNxt c.send.retransmission.sndUna →
    ∃ q bytes, c.send.retransmission.acknowledge ack = .ok (q, ⟨.advanced, bytes⟩)

/-- Past the handshake the SYN has been acknowledged; beside payload, only one
FIN can be outstanding. -/
theorem Sending.outstanding_le_flight (h : c.Sending cfg) (hstate : c.state ≠ .synSent) :
    c.send.retransmission.items.length ≤ 65536 := by
  have hsyn : c.stream.outstanding.count .syn = 0 := by
    obtain ⟨rest, hrest, hnone⟩ := h.synFirst
    obtain ⟨first, acked, hacked⟩ := List.exists_cons_of_ne_nil (h.synAcked hstate)
    rw [SendStream.State.history, hacked, List.cons_append] at hrest
    rw [← (List.cons.inj hrest).2] at hnone
    exact List.count_eq_zero.mpr fun hmem => hnone (List.mem_append.mpr (.inr hmem))
  have hcontrols := controls_eq_count c.stream.outstanding
  have hsplit := dataOf_add_controls c.stream.outstanding
  have hdata : c.send.retransmission.payloadBytesInFlight =
    (dataOf c.stream.outstanding).length := h.tracked.inFlight
  have hfin := h.finOutstanding
  have hfly := h.inFlight
  change c.stream.outstanding.length ≤ _
  omega

theorem Sending.flightBounded (h : c.Sending cfg) (hwindow : 1 ≤ cfg.tcpWindowSize)
    (hstate : c.state ≠ .synSent) : FlightBounded cfg c := by
  have hitems := h.outstanding_le_flight hstate
  have hout := h.tracked.outstanding (Nat.lt_of_le_of_lt hitems (by omega))
  refine ⟨h.cwnd hwindow, tcpSendLimit_eq cfg c (h.cwnd hwindow), h.inFlight,
    hout.trans_le hitems, fun ack hpos hle => ?_⟩
  obtain ⟨rest, he, -⟩ := RetransmissionQueue.acknowledge_advanced h.tracked ack hpos
    (Nat.lt_of_le_of_lt (hle.trans (hout.trans_le hitems)) (by omega)) hle
  exact ⟨_, _, he⟩

theorem Finished.flightBounded (h : Finished cfg c) (hwindow : 1 ≤ cfg.tcpWindowSize) :
    FlightBounded cfg c := by
  have hnone : sequenceDistance c.send.retransmission.sndNxt c.send.retransmission.sndUna = 0 := by
    rw [h.drained]
    exact distance_self _
  refine ⟨h.cwnd hwindow, tcpSendLimit_eq cfg c (h.cwnd hwindow), ?_, ?_, fun ack hpos hle => ?_⟩
  · rw [h.idle]
    exact Nat.zero_le _
  · rw [hnone]
    exact Nat.zero_le _
  · omega

/-- New payload leaves the send loop outside recovery and within both windows,
the FIN leaves it with room in the window of the VM, and the timer sends neither
outside persist mode. So the flight of every connection past its handshake is
bounded, its congestion window is positive, and every acknowledgement of
something outstanding advances. -/
theorem reachable_flight_bounded (hwindow : 1 ≤ cfg.tcpWindowSize) :
    (∀ (c c' : Conn) turn rateLimited cooperativeSegments goesOn,
      c.drainStep cfg turn rateLimited cooperativeSegments = .ok (c', goesOn) →
      c.send.retransmission.payloadBytesInFlight < c'.send.retransmission.payloadBytesInFlight →
      c.recoveryActive = false ∧
        c'.send.retransmission.payloadBytesInFlight ≤ c.tcpSendLimit cfg) ∧
    (∀ c c' : Conn, c.maybeSendFin cfg = .ok c' → c'.send.finSent ≠ c.send.finSent →
      c.send.retransmission.payloadBytesInFlight < c.send.vmWindow) ∧
    (∀ (c : Conn) turn generation, c.send.retransmission.persist = false →
      (c.fireRetransmissionTimer cfg turn generation).send.finSent = c.send.finSent) ∧
    ∀ c, Reachable cfg c → c.registered = true → c.state ≠ .synSent → FlightBounded cfg c := by
  refine ⟨fun c c' turn rateLimited n goesOn h hadds => drainStep_inFlight h hadds,
    fun c c' h hsent => maybeSendFin_room h hsent,
    fun c turn generation hpersist => fireRetransmissionTimer_finSent cfg turn c generation hpersist,
    fun c h hregistered hstate => ?_⟩
  rcases h.inv hregistered with hlive | hfinished
  · exact hlive.sending.flightBounded hwindow hstate
  · exact hfinished.flightBounded hwindow

/-- Three bytes in flight on a connection of the relay to the VM. -/
theorem reachable_flight_bounded_upload :
    ∃ c : Conn, c.send.retransmission.payloadBytesInFlight = 3 ∧ FlightBounded {} c := by
  obtain ⟨c, hrun, hc⟩ := exists_run {} exampleReverse
    [({}, .segment exampleSynAck), ({}, .sourceData [1, 2, 3])]
    (fun c => c.registered && decide (c.state = .established) &&
      decide (c.send.retransmission.payloadBytesInFlight = 3)) (by decide +kernel)
  simp only [Bool.and_eq_true, decide_eq_true_eq] at hc
  obtain ⟨⟨hregistered, hstate⟩, hfly⟩ := hc
  refine ⟨c, hfly, ?_⟩
  refine (reachable_flight_bounded (by decide)).2.2.2 c
    ⟨exampleReverse, opened_exampleReverse, _, hrun⟩ hregistered ?_
  rw [hstate]
  nofun

end Conn

end RootlessRelay
