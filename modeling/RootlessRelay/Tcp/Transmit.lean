import RootlessRelay.Tcp.Event
import RootlessRelay.Tcp.RetransmissionTimer

/-!
# What sending a segment does to a connection

`sendTCP` is called in three ways: to repeat a tracked segment, to send a
control segment, and to put new items into sequence space. The first two only
add to what has been sent (`emit`). The third one is `transmit`: it also moves
`relaySeq` and the retransmission queue, and under the bookkeeping invariant
`track` accepts the segment.
-/

namespace RootlessRelay

open SequenceSpace

namespace RetransmissionQueue

/-- The queue after `track` has accepted a segment: the timer is armed if
nothing was outstanding. -/
def tracked (q : RetransmissionQueue) (sent : SentSegment) : RetransmissionQueue :=
  if q.segments = [] ∧ q.timer = none then (q.append sent).armTimer else q.append sent

variable {q : RetransmissionQueue} {sent : SentSegment}

theorem track_eq_tracked (sent : SentSegment) (hopen : q.closed = false) (hlive : q.exhausted = false)
    (hseq : sent.seq = q.sndNxt) (hitems : itemsOf sent.payload sent.flags ≠ []) :
    q.track sent = .ok (q.tracked sent, true) := by
  obtain ⟨hshut, -⟩ | ⟨-, -, hnil, -⟩ | ⟨-, -, -, hne, -⟩ | ⟨-, -, -, -, he⟩ := track_cases q sent
  · simp [hopen, hlive] at hshut
  · exact absurd hnil hitems
  · exact absurd hseq hne
  · exact he

@[simp] theorem tracked_items (q : RetransmissionQueue) (sent : SentSegment) :
    (q.tracked sent).items = q.items ++ itemsOf sent.payload sent.flags := by
  unfold tracked
  split <;> simp

@[simp] theorem tracked_sndUna : (q.tracked sent).sndUna = q.sndUna := by
  unfold tracked
  split <;> simp

@[simp] theorem tracked_sndNxt : (q.tracked sent).sndNxt =
    q.sndNxt + BitVec.ofNat 32 (sequenceLength sent.payload sent.flags) := by
  unfold tracked
  split <;> simp [append]

@[simp] theorem tracked_closed : (q.tracked sent).closed = q.closed := by
  unfold tracked
  split <;> simp [append]

@[simp] theorem tracked_exhausted : (q.tracked sent).exhausted = q.exhausted := by
  unfold tracked
  split <;> simp [append]

@[simp] theorem tracked_persist : (q.tracked sent).persist = q.persist := by
  unfold tracked
  split <;> simp [append]

@[simp] theorem tracked_payloadBytesInFlight : (q.tracked sent).payloadBytesInFlight =
    q.payloadBytesInFlight + sent.payload.length := by
  unfold tracked
  split <;> simp [append]

/-- The segment that has been tracked stands in the queue, under its number and
flags. -/
theorem mem_tracked_segments (q : RetransmissionQueue) (sent : SentSegment) :
    ∃ segment ∈ (q.tracked sent).segments, segment.seq = sent.seq ∧ segment.flags = sent.flags := by
  have hlast : ∃ segment ∈ (q.append sent).segments,
      segment.seq = sent.seq ∧ segment.flags = sent.flags :=
    ⟨_, List.mem_append_right _ (List.mem_singleton_self _), rfl, rfl⟩
  unfold tracked
  split
  · rw [armTimer_segments]
    exact hlast
  · exact hlast

theorem tracked_segments_ne_nil : (q.tracked sent).segments ≠ [] := by
  unfold tracked
  split <;> simp [append]

theorem WellTracked.tracked (h : q.WellTracked) (hseq : sent.seq = q.sndNxt)
    (hitems : itemsOf sent.payload sent.flags ≠ []) : (q.tracked sent).WellTracked := by
  unfold RetransmissionQueue.tracked
  split
  · exact (h.append hseq hitems).armTimer
  · exact h.append hseq hitems

theorem TimerExact.tracked (h : q.TimerExact) (hopen : q.closed = false)
    (hlive : q.exhausted = false) (hseq : sent.seq = q.sndNxt)
    (hitems : itemsOf sent.payload sent.flags ≠ []) : (q.tracked sent).TimerExact :=
  track_timerExact h (track_eq_tracked sent hopen hlive hseq hitems)

end RetransmissionQueue

namespace Conn

variable (cfg : Settings)

/-- Segments were handed to `sendIPToVM`; nothing else changed. -/
def emit (c : Conn) (wires : List WireSegment) : Conn := { c with sent := c.sent ++ wires }

section Emit

variable (c : Conn) (wires : List WireSegment)

@[simp] theorem emit_send : (c.emit wires).send = c.send := rfl
@[simp] theorem emit_recv : (c.emit wires).recv = c.recv := rfl
@[simp] theorem emit_state : (c.emit wires).state = c.state := rfl
@[simp] theorem emit_registered : (c.emit wires).registered = c.registered := rfl
@[simp] theorem emit_direction : (c.emit wires).direction = c.direction := rfl
@[simp] theorem emit_tx : (c.emit wires).tx = c.tx := rfl
@[simp] theorem emit_sent : (c.emit wires).sent = c.sent ++ wires := rfl

theorem emit_emit (wires' : List WireSegment) :
    (c.emit wires).emit wires' = c.emit (wires ++ wires') := by
  simp [emit, List.append_assoc]

@[simp] theorem emit_nil : c.emit [] = c := by
  simp [emit]

end Emit

/-- A payload of at most one MSS is sent in one segment, under unchanged flags. -/
theorem sendTCP_short {c : Conn} {payload : Bytes} (h : payload.length ≤ c.tcpMss cfg)
    (flags : Flags) (sequence : Option Seq) (advance : Bool) :
    c.sendTCP cfg payload flags sequence advance =
      ((c.sendChunk cfg (sequence.getD c.send.relaySeq) payload flags advance).1,
        (c.sendChunk cfg (sequence.getD c.send.relaySeq) payload flags advance).2.toList) := by
  simp [sendTCP, sendTCPLoop, List.take_of_length_le h, List.drop_of_length_le h]

/-- The segment `sendChunk` builds, with the window of the moment. -/
def wire (c : Conn) (sequence : Seq) (payload : Bytes) (flags : Flags) : WireSegment :=
  { flow := c.tx, sequence, acknowledgment := c.recv.vmSeq, flags,
    window := flags.windowSize.getD (c.tcpReceiveWindow cfg),
    mss := if flags.syn then some cfg.TCP_MSS else none, payload }

theorem sendChunk_resend (c : Conn) (sequence : Seq) (chunk : Bytes) (flags : Flags) :
    (c.sendChunk cfg sequence chunk flags false).1 = c.emit [c.wire cfg sequence chunk flags] := by
  simp [sendChunk, emit, wire]

/-- Without `advance`, `sendTCP` only sends: nothing of the connection moves. -/
theorem sendTCPLoop_resend (mss : Nat) (flags : Flags) (fuel : Nat) (c : Conn) (sequence : Seq)
    (isFirst : Bool) (rest : Bytes) (segments : List SentSegment) :
    ∃ wires, (sendTCPLoop cfg mss flags false fuel c sequence isFirst rest segments).1 =
      c.emit wires := by
  induction fuel generalizing c sequence isFirst rest segments with
  | zero => exact ⟨[], by simp [sendTCPLoop]⟩
  | succ fuel ih =>
      simp only [sendTCPLoop]
      split
      · exact ⟨_, sendChunk_resend cfg c _ _ _⟩
      · rw [sendChunk_resend]
        obtain ⟨wires, hloop⟩ := ih (c.emit [c.wire cfg sequence (rest.take mss) _]) _ _ _ _
        exact ⟨_, hloop.trans (emit_emit _ _ _)⟩

theorem resend_eq (c : Conn) (segment : Segment) : ∃ wires, c.resend cfg segment = c.emit wires :=
  sendTCPLoop_resend cfg _ _ _ _ _ _ _ _

/-- A control segment without payload, SYN or FIN (or with RST) only gets sent,
since it takes up no number. -/
theorem sendTCP_control {c : Conn} {flags : Flags}
    (h : flags.syn = false ∧ flags.fin = false ∨ flags.rst = true) (advance : Bool) :
    (c.sendTCP cfg [] flags none advance).1 = c.emit [c.wire cfg c.send.relaySeq [] flags] := by
  rw [sendTCP_short cfg (Nat.zero_le _)]
  have huntracked : (decide (sequenceLength [] flags > 0) && !flags.rst) = false := by
    rcases h with ⟨hsyn, hfin⟩ | hrst
    · simp [sequenceLength, hsyn, hfin]
    · simp [hrst]
  simp [sendChunk, huntracked, emit, wire]

/-- The pure acknowledgement `sendTCPAck` sends. -/
def ackSegment (c : Conn) : WireSegment :=
  c.wire cfg c.send.relaySeq [] { ack := true, windowSize := some (c.tcpReceiveWindow cfg) }

@[simp] theorem ackSegment_payload (c : Conn) : (c.ackSegment cfg).payload = [] := rfl

theorem sendTCPAck_eq (c : Conn) :
    c.sendTCPAck cfg = c.clearDelayedTCPAck.emit [c.ackSegment cfg] := by
  rw [sendTCPAck, sendTCP_control cfg (.inl ⟨rfl, rfl⟩)]
  rfl

/-- The connection after `sendTrackedTCP` put the items of one segment into
sequence space. -/
def transmit (c : Conn) (payload : Bytes) (flags : Flags) : Conn :=
  { c with
    sent := c.sent ++ [c.wire cfg c.send.relaySeq payload flags]
    send := { c.send with
      relaySeq := c.send.relaySeq + BitVec.ofNat 32 (sequenceLength payload flags)
      retransmission := c.send.retransmission.tracked { seq := c.send.relaySeq, payload, flags } } }

theorem sendTrackedTCP_eq {c : Conn} {payload : Bytes} {flags : Flags}
    (hopen : c.send.retransmission.closed = false)
    (hlive : c.send.retransmission.exhausted = false)
    (hseq : c.send.relaySeq = c.send.retransmission.sndNxt)
    (hshort : payload.length ≤ c.tcpMss cfg) (hitems : itemsOf payload flags ≠ [])
    (hrst : flags.rst = false) :
    c.sendTrackedTCP cfg payload flags none true = .ok (c.transmit cfg payload flags) := by
  have hlen : 0 < sequenceLength payload flags := by
    rw [← itemsOf_length]
    exact List.length_pos_iff.mpr hitems
  have htrack := RetransmissionQueue.track_eq_tracked ⟨c.send.relaySeq, payload, flags⟩ hopen hlive
    hseq hitems
  simp [sendTrackedTCP, sendTCP_short cfg hshort, sendChunk, hlen, hrst, trackAll, htrack,
    transmit, wire, withQueue]

end Conn

end RootlessRelay
