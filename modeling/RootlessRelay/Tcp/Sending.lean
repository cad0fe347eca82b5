import RootlessRelay.Library.SendStream
import RootlessRelay.Tcp.Callbacks

/-!
# The sending side as a stream

`Sending` collects what holds of the sending side of every live connection
whenever none of its functions is in the middle of an update: the queue, the
counters and the retransmission queue describe one outgoing stream. The lemmas
say how each primitive operation keeps it.

The stream is that of the library (`SendStream`), read off the connection by
`stream`. Its history, what has been acknowledged and what is outstanding
together, is where positions in sequence space are counted, so that numbers, the
recovery point and the FIN are all stated against one list.
-/

namespace RootlessRelay

open SequenceSpace SendStream

/-- Items as the units of an outgoing stream: bytes are payload, the FIN marks
the end. -/
def itemFormat : Format Item Byte where
  payload := fun | .byte b => some b | _ => none
  unit := .byte
  fin := .fin
  payload_unit _ := rfl
  payload_fin := rfl

theorem filterMap_itemFormat (xs : List Item) : xs.filterMap itemFormat.payload = dataOf xs := rfl

theorem syn_not_mem_bytes (payload : Bytes) : Item.syn ∉ payload.map .byte := by
  simp

theorem fin_not_mem_bytes (payload : Bytes) : Item.fin ∉ payload.map .byte := by
  simp

/-- The items of a list that are not payload, counted. -/
def controls (xs : List Item) : Nat := xs.length - (dataOf xs).length

theorem dataOf_add_controls (xs : List Item) : (dataOf xs).length + controls xs = xs.length := by
  have := dataOf_length_le xs
  simp only [controls]
  omega

theorem controls_append (xs ys : List Item) : controls (xs ++ ys) = controls xs + controls ys := by
  have hx := dataOf_add_controls xs
  have hy := dataOf_add_controls ys
  have hxy := dataOf_add_controls (xs ++ ys)
  simp only [dataOf_append, List.length_append] at hxy
  omega

/-- What is not payload is a SYN or a FIN. -/
theorem controls_eq_count (xs : List Item) : controls xs = xs.count .syn + xs.count .fin := by
  induction xs with
  | nil => rfl
  | cons x rest ih =>
      rw [show x :: rest = [x] ++ rest from rfl, controls_append, List.count_append,
        List.count_append, ih]
      have hx : controls [x] = [x].count .syn + [x].count .fin := by
        cases x <;> rfl
      omega

namespace RetransmissionQueue

/-- The two queues differ in timers, counters and modes only. -/
structure SameStream (q q' : RetransmissionQueue) : Prop where
  items : q'.items = q.items
  sndUna : q'.sndUna = q.sndUna
  sndNxt : q'.sndNxt = q.sndNxt
  inFlight : q'.payloadBytesInFlight = q.payloadBytesInFlight
  closed : q'.closed = q.closed
  exhausted : q'.exhausted = q.exhausted
  tracked : q.WellTracked → q'.WellTracked

variable {q q' : RetransmissionQueue}

theorem SameStream.of_segments (hseg : q'.segments = q.segments) (huna : q'.sndUna = q.sndUna)
    (hnxt : q'.sndNxt = q.sndNxt) (hfly : q'.payloadBytesInFlight = q.payloadBytesInFlight)
    (hclosed : q'.closed = q.closed) (hexhausted : q'.exhausted = q.exhausted) :
    q.SameStream q' :=
  ⟨by simp only [RetransmissionQueue.items, hseg], huna, hnxt, hfly, hclosed, hexhausted,
    fun h => h.congr hseg huna hnxt hfly⟩

theorem SameStream.armTimer (h : q.SameStream q') : q.SameStream q'.armTimer :=
  ⟨by simp [h.items], by simp [h.sndUna], by simp [h.sndNxt], by simp [h.inFlight],
    by simp [h.closed], by simp [h.exhausted], fun hw => (h.tracked hw).armTimer⟩

theorem SameStream.clearTimer (h : q.SameStream q') : q.SameStream q'.clearTimer :=
  ⟨h.items, h.sndUna, h.sndNxt, h.inFlight, h.closed, h.exhausted,
    fun hw => (h.tracked hw).clearTimer⟩

theorem SameStream.backOff (h : q.SameStream q') : q.SameStream q'.backOff :=
  armTimer ⟨h.items, h.sndUna, h.sndNxt, h.inFlight, h.closed, h.exhausted,
    fun hw => (h.tracked hw).congr rfl rfl rfl rfl⟩

theorem SameStream.trans {q'' : RetransmissionQueue} (h : q.SameStream q')
    (h' : q'.SameStream q'') : q.SameStream q'' :=
  ⟨h'.items.trans h.items, h'.sndUna.trans h.sndUna, h'.sndNxt.trans h.sndNxt,
    h'.inFlight.trans h.inFlight, h'.closed.trans h.closed, h'.exhausted.trans h.exhausted,
    fun hw => h'.tracked (h.tracked hw)⟩

theorem switchPersist_sameStream (q : RetransmissionQueue) (enabled : Bool) :
    q.SameStream (q.switchPersist enabled) :=
  .of_segments rfl rfl rfl rfl rfl rfl

theorem countTimeout_sameStream (q : RetransmissionQueue) : q.SameStream q.countTimeout :=
  .of_segments rfl rfl rfl rfl rfl rfl

theorem countRetransmission_sameStream (q : RetransmissionQueue) :
    q.SameStream { q.countTimeout with
      segments := RetransmissionQueue.countRetransmission q.segments } :=
  ⟨by simp [RetransmissionQueue.items], rfl, rfl, rfl, rfl, rfl,
    fun h => h.countRetransmission rfl rfl rfl rfl⟩

end RetransmissionQueue

namespace Conn

variable (cfg : Settings)

/-- The outgoing stream of a connection: the abstraction function of the
refinement. -/
def stream (c : Conn) : State Item Byte where
  acknowledged := c.send.acknowledged
  outstanding := c.send.retransmission.items
  queued := c.send.sendQueue.flatten
  enqueued := c.send.enqueued
  finished := c.send.finSent

/-- The recovery point is the number of an item already in sequence space. Since
it was reached, only control items have been acknowledged. -/
def RecoveryPoint (c : Conn) (recoveryUntil : Seq) : Prop :=
  ∃ place, recoveryUntil = position c.send.relayIsn place ∧ place ≤ c.stream.history.length ∧
    c.stream.acknowledged.length ≤ place + controls c.stream.acknowledged

/-- The invariant of the sending side, while the connection is live. -/
structure Sending (c : Conn) : Prop where
  opened : c.send.retransmission.closed = false
  live : c.send.retransmission.exhausted = false
  notClosed : c.state ≠ .closed
  tracked : c.send.retransmission.WellTracked
  acked : c.send.retransmission.sndUna = position c.send.relayIsn c.stream.acknowledged.length
  next : c.send.relaySeq = c.send.retransmission.sndNxt
  queueBytes : c.send.sendQueueBytes = c.send.sendQueue.flatten.length
  chunks : [] ∉ c.send.sendQueue
  conserved : c.stream.Conserved itemFormat
  synFirst : ∃ rest, c.stream.history = .syn :: rest ∧ .syn ∉ rest
  finTracked : .fin ∈ c.stream.history ↔ c.send.finSent = true
  finBudget : c.stream.history.count .fin + c.send.pendingFin.toNat ≤
    c.send.sourceEnded.toNat + c.send.localClosed.toNat
  finOutstanding : c.stream.outstanding.count .fin ≤ 1
  inFlight : c.send.retransmission.payloadBytesInFlight ≤ 65535
  window : c.direction = .outbound ∨ c.state ≠ .synSent → c.send.vmWindow ≤ 65535
  handshake : c.state = .synSent → c.stream.history = [.syn]
  synAcked : c.state ≠ .synSent → c.stream.acknowledged ≠ []
  cwnd : 1 ≤ cfg.tcpWindowSize → 1 ≤ c.send.congestionWindow
  recovery : ∀ recoveryUntil, c.send.congestionRecoveryUntil = some recoveryUntil →
    c.RecoveryPoint recoveryUntil
  pacer : c.send.pacer.TimerExact
  paused : c.send.sendSourcePaused = true → cfg.sendQueueLowWaterBytes < c.send.sendQueueBytes

variable {cfg} {c : Conn}

namespace Sending

/-- At most two control items are outstanding, and few were ever acknowledged. -/
theorem controls_le (h : c.Sending cfg) : controls c.stream.history ≤ 3 := by
  obtain ⟨rest, hrest, hsyn⟩ := h.synFirst
  have hone : c.stream.history.count .syn = 1 := by
    rw [hrest, List.count_cons_self, List.count_eq_zero.mpr hsyn]
  have hfin := h.finBudget
  rw [controls_eq_count, hone]
  have h1 := c.send.sourceEnded.toNat_le
  have h2 := c.send.localClosed.toNat_le
  omega

theorem outstanding_le (h : c.Sending cfg) : c.send.retransmission.items.length ≤ 65538 := by
  have hsplit := dataOf_add_controls c.send.retransmission.items
  have hcontrols := h.controls_le
  have hfly := h.tracked.inFlight
  have hbound := h.inFlight
  rw [State.history, controls_append] at hcontrols
  change controls c.send.acknowledged + controls c.send.retransmission.items ≤ 3 at hcontrols
  omega

theorem withQueue_stream {q : RetransmissionQueue}
    (hitems : q.items = c.send.retransmission.items) : (c.withQueue q).stream = c.stream :=
  congrArg (fun outstanding => { c.stream with outstanding }) hitems

/-- Another queue with the same stream, as timers and modes change. -/
theorem withQueue (h : c.Sending cfg) {q : RetransmissionQueue}
    (hq : c.send.retransmission.SameStream q) : (c.withQueue q).Sending cfg := by
  have hstream := withQueue_stream (c := c) hq.items
  exact {
    opened := hq.closed.trans h.opened
    live := hq.exhausted.trans h.live
    notClosed := h.notClosed
    tracked := hq.tracked h.tracked
    acked := hq.sndUna.trans h.acked
    next := h.next.trans hq.sndNxt.symm
    queueBytes := h.queueBytes
    chunks := h.chunks
    conserved := hstream ▸ h.conserved
    synFirst := hstream ▸ h.synFirst
    finTracked := hstream ▸ h.finTracked
    finBudget := hstream ▸ h.finBudget
    finOutstanding := hstream ▸ h.finOutstanding
    inFlight := hq.inFlight.trans_le h.inFlight
    window := h.window
    handshake := hstream ▸ h.handshake
    synAcked := hstream ▸ h.synAcked
    cwnd := h.cwnd
    recovery := fun r hr => by
      unfold RecoveryPoint
      rw [hstream]
      exact h.recovery r hr
    pacer := h.pacer
    paused := h.paused }

theorem emit (h : c.Sending cfg) (wires : List WireSegment) : (c.emit wires).Sending cfg :=
  { h with }

/-- Bytes from the front of the queue enter sequence space in one segment. -/
theorem sendBytes (h : c.Sending cfg) {left : List Bytes} {count : Nat} (flags : Flags)
    (hpos : 0 < count) (hle : count ≤ c.send.sendQueueBytes) (hstate : c.state ≠ .synSent)
    (hfly : c.send.retransmission.payloadBytesInFlight + count ≤ 65535)
    (hflat : left.flatten = c.send.sendQueue.flatten.drop count) (hne : [] ∉ left)
    (hsyn : flags.syn = false) (hfin : flags.fin = false) :
    (((c.withSendQueue left).transmit cfg (c.send.sendQueue.flatten.take count)
      flags).consumeTCPQueuedData cfg count).Sending cfg ∧
    SendStream.Step itemFormat c.stream (.transmit count)
      (((c.withSendQueue left).transmit cfg (c.send.sendQueue.flatten.take count)
        flags).consumeTCPQueuedData cfg count).stream := by
  have hbytes := h.queueBytes
  have hlen : (c.send.sendQueue.flatten.take count).length = count :=
    List.length_take_of_le (by omega)
  have hitems : itemsOf (c.send.sendQueue.flatten.take count) flags =
      (c.send.sendQueue.flatten.take count).map .byte := by
    simp [itemsOf, hsyn, hfin]
  have hitemsNe : itemsOf (c.send.sendQueue.flatten.take count) flags ≠ [] := by
    rw [hitems]
    intro hnil
    have := congrArg List.length hnil
    simp only [List.length_map, List.length_nil] at this
    omega
  have hstream : (((c.withSendQueue left).transmit cfg (c.send.sendQueue.flatten.take count)
      flags).consumeTCPQueuedData cfg count).stream =
      { c.stream with
        outstanding := c.stream.outstanding ++ (c.stream.queued.take count).map .byte
        queued := c.stream.queued.drop count } := by
    simp only [stream, ← hflat, ← hitems]
    rw [← RetransmissionQueue.tracked_items c.send.retransmission
      ⟨c.send.relaySeq, c.send.sendQueue.flatten.take count, flags⟩]
    rfl
  have hstep : SendStream.Step itemFormat c.stream (.transmit count)
      (((c.withSendQueue left).transmit cfg (c.send.sendQueue.flatten.take count)
        flags).consumeTCPQueuedData cfg count).stream := by
    rw [hstream]
    exact .transmit c.stream count
  have hhistory : (((c.withSendQueue left).transmit cfg (c.send.sendQueue.flatten.take count)
      flags).consumeTCPQueuedData cfg count).stream.history =
      c.stream.history ++ (c.stream.queued.take count).map .byte := by
    rw [hstream]
    simp only [State.history, List.append_assoc]
  have hnofin : ((c.stream.queued.take count).map Item.byte).count .fin = 0 :=
    List.count_eq_zero.mpr (fin_not_mem_bytes _)
  refine ⟨?_, hstep⟩
  exact {
    opened := (RetransmissionQueue.tracked_closed (q := c.send.retransmission)).trans h.opened
    live := (RetransmissionQueue.tracked_exhausted (q := c.send.retransmission)).trans h.live
    notClosed := h.notClosed
    tracked := h.tracked.tracked h.next hitemsNe
    acked := by
      rw [hstream]
      exact (RetransmissionQueue.tracked_sndUna (q := c.send.retransmission)).trans h.acked
    next := by
      refine Eq.trans ?_ (RetransmissionQueue.tracked_sndNxt (q := c.send.retransmission)).symm
      rw [← h.next]
      rfl
    queueBytes := by
      change c.send.sendQueueBytes - count = left.flatten.length
      rw [hflat, List.length_drop, hbytes]
    chunks := hne
    conserved := hstep.conserved h.conserved
    synFirst := by
      obtain ⟨rest, hrest, hmem⟩ := h.synFirst
      refine ⟨rest ++ (c.stream.queued.take count).map .byte, ?_, ?_⟩
      · rw [hhistory, hrest, List.cons_append]
      · rw [List.mem_append, not_or]
        exact ⟨hmem, syn_not_mem_bytes _⟩
    finTracked := by
      rw [hhistory, List.mem_append, or_iff_left (fin_not_mem_bytes _)]
      exact h.finTracked
    finBudget := by
      rw [hhistory, List.count_append, hnofin]
      exact h.finBudget
    finOutstanding := by
      rw [hstream]
      simp only [List.count_append, hnofin]
      exact h.finOutstanding
    inFlight := by
      refine (RetransmissionQueue.tracked_payloadBytesInFlight
        (q := c.send.retransmission)).trans_le ?_
      change _ + (c.send.sendQueue.flatten.take count).length ≤ _
      rw [hlen]
      exact hfly
    window := h.window
    handshake := fun hs => absurd hs hstate
    synAcked := by
      rw [hstream]
      exact h.synAcked
    cwnd := h.cwnd
    recovery := fun r hr => by
      obtain ⟨place, hplace, hreached, hctl⟩ := h.recovery r hr
      refine ⟨place, hplace, ?_, ?_⟩
      · rw [hhistory, List.length_append]
        omega
      · rw [hstream]
        exact hctl
    pacer := h.pacer
    paused := by
      intro hp
      change (c.send.sendSourcePaused &&
        !decide (c.send.sendQueueBytes - count ≤ cfg.sendQueueLowWaterBytes)) = true at hp
      change cfg.sendQueueLowWaterBytes < c.send.sendQueueBytes - count
      simp only [Bool.and_eq_true, Bool.not_eq_true', decide_eq_false_iff_not] at hp
      omega }

/-- The FIN enters sequence space, as the last item of the stream. -/
theorem sendFin (h : c.Sending cfg) (hstate : c.state ≠ .synSent)
    (hpending : c.send.pendingFin = true) (hqueue : c.send.sendQueue = [])
    (hnone : .fin ∉ c.stream.outstanding) :
    c.sendFin cfg = .ok (c.markFin.transmit cfg [] { fin := true, ack := true }) ∧
    (c.markFin.transmit cfg [] { fin := true, ack := true }).Sending cfg ∧
    SendStream.Step itemFormat c.stream .finish
      (c.markFin.transmit cfg [] { fin := true, ack := true }).stream := by
  have hstream : (c.markFin.transmit cfg [] { fin := true, ack := true }).stream =
      { c.stream with outstanding := c.stream.outstanding ++ [.fin], finished := true } := by
    simp only [stream]
    rw [show [Item.fin] = itemsOf [] { fin := true, ack := true } from rfl,
      ← RetransmissionQueue.tracked_items c.send.retransmission
        ⟨c.send.relaySeq, [], { fin := true, ack := true }⟩]
    rfl
  have hstep : SendStream.Step itemFormat c.stream .finish
      (c.markFin.transmit cfg [] { fin := true, ack := true }).stream := by
    rw [hstream]
    exact .finish (by simp [stream, hqueue])
  have hhistory : (c.markFin.transmit cfg [] { fin := true, ack := true }).stream.history =
      c.stream.history ++ [.fin] := by
    rw [hstream]
    simp only [State.history, List.append_assoc]
  refine ⟨sendTrackedTCP_eq cfg h.opened h.live h.next (Nat.zero_le _) (by decide) rfl, ?_, hstep⟩
  exact {
    opened := (RetransmissionQueue.tracked_closed (q := c.send.retransmission)).trans h.opened
    live := (RetransmissionQueue.tracked_exhausted (q := c.send.retransmission)).trans h.live
    notClosed := by rintro ⟨⟩
    tracked := h.tracked.tracked h.next (List.cons_ne_nil _ _)
    acked := by
      rw [hstream]
      exact (RetransmissionQueue.tracked_sndUna (q := c.send.retransmission)).trans h.acked
    next := by
      refine Eq.trans ?_ (RetransmissionQueue.tracked_sndNxt (q := c.send.retransmission)).symm
      rw [← h.next]
      rfl
    queueBytes := h.queueBytes
    chunks := h.chunks
    conserved := hstep.conserved h.conserved
    synFirst := by
      obtain ⟨rest, hrest, hmem⟩ := h.synFirst
      refine ⟨rest ++ [.fin], ?_, ?_⟩
      · rw [hhistory, hrest, List.cons_append]
      · simpa using hmem
    finTracked := by
      rw [hhistory]
      simp [transmit, markFin]
    finBudget := by
      rw [hhistory, List.count_append]
      have := h.finBudget
      rw [hpending] at this
      exact this
    finOutstanding := by
      rw [hstream]
      simp [List.count_append, List.count_eq_zero.mpr hnone]
    inFlight := by
      refine (RetransmissionQueue.tracked_payloadBytesInFlight
        (q := c.send.retransmission)).trans_le ?_
      exact h.inFlight
    window := fun _ => h.window (.inr hstate)
    handshake := by rintro ⟨⟩
    synAcked := fun _ => by
      rw [hstream]
      exact h.synAcked hstate
    cwnd := h.cwnd
    recovery := fun r hr => by
      obtain ⟨place, hplace, hreached, hctl⟩ := h.recovery r hr
      refine ⟨place, hplace, ?_, ?_⟩
      · rw [hhistory, List.length_append]
        omega
      · rw [hstream]
        exact hctl
    pacer := h.pacer
    paused := h.paused }

end Sending

end Conn

end RootlessRelay
