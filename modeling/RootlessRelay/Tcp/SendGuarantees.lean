import RootlessRelay.Tcp.Runs

/-!
# Guarantees of the sending side

What a peer and an endpoint can rely on between any two events of a current
connection: the outgoing stream is conserved, whatever waits to be sent has a
cause to be sent, and the FIN is unique and last as long as no callback is
`Improper`.

Connections that have just been opened are looked at with more care, since an
opening can throw and leave its connection in the map. A reverse connection
conserves its stream even then; an outbound one does not, because its SYN-ACK
has taken a number before it failed to be written. The run lemmas therefore
start from every connection that an opening can leave.
-/

namespace RootlessRelay

open SequenceSpace Transition SendStream

namespace Conn

variable {cfg : Settings} {turn : Turn} {c c' c'' : Conn} {event : Event}

/-- No byte handed to `enqueueTCPData` is lost, repeated or reordered, and the
counters agree with what they count. -/
structure StreamConserved (c : Conn) : Prop where
  stream : dataOf c.send.acknowledged ++ c.send.retransmission.segments.flatMap Segment.payload ++
    c.send.sendQueue.flatten = c.send.enqueued
  acknowledged : c.send.retransmission.sndUna =
    position c.send.relayIsn c.send.acknowledged.length
  queueBytes : c.send.sendQueueBytes = (c.send.sendQueue.map List.length).sum
  contiguous : c.send.relaySeq = c.send.retransmission.sndNxt

theorem Sending.streamConserved (h : c.Sending cfg) : c.StreamConserved where
  stream := by
    have hconserved := h.conserved
    rw [State.Conserved, filterMap_itemFormat, State.history, dataOf_append] at hconserved
    rw [← dataOf_segmentItems]
    exact hconserved
  acknowledged := h.acked
  queueBytes := by rw [h.queueBytes, List.length_flatten]
  contiguous := h.next

/-- A timer gives a live connection up only when its budget is spent, so no
probe has failed to track its byte or FIN. -/
theorem Live.registered_of_budget (h : Live cfg c) (turn : Turn) (generation : Nat)
    (hbudget : c.send.retransmission.timeoutRetransmissions <
      c.send.retransmission.maxRetransmissions) :
    (c.fireRetransmissionTimer cfg turn generation).registered = true := by
  obtain ⟨hspent, -⟩ | hfired := fireRetransmissionTimer_spec turn generation
    (fun _ _ (_ : Proper _ _) => trivial) (fun _ => (trivial : (fun _ _ => True) _ _)) h
  · exact absurd hbudget (Nat.not_lt.mpr hspent)
  · exact (congrArg Frame.registered hfired.frame).trans h.registered

/-- Between two events: the stream is conserved, and no callback that can run
throws, nor any of the probes a timer makes. -/
structure Conserves (cfg : Settings) (c : Conn) : Prop where
  conserved : c.StreamConserved
  returns : ∀ turn event, c.Enabled event → ∃ c', c.handle cfg turn event = .ok c'
  probes : ∀ turn, (c.onPersistProbe cfg turn c.send.retransmission.oldest).2 ≠ .threw
  keeps : ∀ turn generation, c.send.retransmission.timeoutRetransmissions <
      c.send.retransmission.maxRetransmissions →
    (c.fireRetransmissionTimer cfg turn generation).registered = true

theorem Reachable.conserves (h : Reachable cfg c) (hcurrent : c.Current) : c.Conserves cfg := by
  have hlive := h.live hcurrent
  refine ⟨hlive.sending.streamConserved, fun turn event henabled => ?_, fun turn => ?_,
    fun turn generation => hlive.registered_of_budget turn generation⟩
  · obtain ⟨c', hok, -⟩ := h.inv.progress turn henabled
    exact ⟨c', hok⟩
  · obtain ⟨c', result, he, hthrew, -⟩ := onPersistProbe_spec turn
      (fun _ _ (_ : Proper _ _) => trivial) (fun _ => (trivial : (fun _ _ => True) _ _))
      hlive.sending hlive.registered hlive.awaiting
    rw [he]
    exact hthrew

/-- The connection of an opening that threw for its port: it waits for an answer
to a SYN that was never sent, and all it can do is queue. -/
structure Unsent (cfg : Settings) (c : Conn) : Prop where
  direction : c.direction = .reverse
  state : c.state = .synSent
  queue : c.send.retransmission = RetransmissionQueue.new c.send.relayIsn cfg.rtoInitialMs
    cfg.rtoMaxMs cfg.rtoMaxRetransmissions
  relaySeq : c.send.relaySeq = c.send.relayIsn
  acknowledged : c.send.acknowledged = []
  queued : c.send.sendQueue.flatten = c.send.enqueued
  queueBytes : c.send.sendQueueBytes = c.send.sendQueue.flatten.length
  chunks : [] ∉ c.send.sendQueue
  idle : c.send.pacer.timer = false ∧ c.recv.receiveAckTimer = false ∧
    c.recv.receiveBackpressured = false ∧ c.removalTimer = false ∧ c.send.rateRetries = 0 ∧
    c.send.immediates = 0 ∧ c.send.transportWaiting = false

theorem reverseConn_unsent (cfg : Settings) (rateLimiter : SlidingWindowRateLimiter) (vmIP : IPv4)
    (srcPort : Port) (port : Int) (isn : Seq) :
    Unsent cfg (reverseConn cfg rateLimiter vmIP srcPort port isn) :=
  ⟨rfl, rfl, rfl, rfl, rfl, rfl, rfl, List.not_mem_nil, rfl, rfl, rfl, rfl, rfl, rfl, rfl⟩

namespace Unsent

theorem trySend (h : Unsent cfg c) (turn : Turn) : c.trySend cfg turn = .ok c := by
  unfold Conn.trySend trySendReverseToVM
  rw [h.direction]
  dsimp only
  rw [if_pos (by simp [h.state, ConnState.isOpen])]

/-- Nothing the VM says acknowledges anything. -/
theorem acknowledge (h : Unsent cfg c) (ackNum : Seq) :
    ∃ result, c.acknowledge ackNum = .ok (c, result) ∧ result.status ≠ .advanced := by
  obtain ⟨result, hresult, hstatus⟩ : ∃ result,
      c.send.retransmission.acknowledge ackNum = .ok (c.send.retransmission, result) ∧
        result.status ≠ .advanced := by
    have hnone : sequenceDistance c.send.retransmission.sndNxt c.send.retransmission.sndUna = 0 := by
      rw [h.queue]
      simp [sequenceDistance, SequenceSpace.distance, RetransmissionQueue.new]
    have hpersist : c.send.retransmission.persist = false := by
      rw [h.queue]
      rfl
    unfold RetransmissionQueue.acknowledge
    simp only [hnone, hpersist]
    split
    · exact ⟨_, rfl, by decide⟩
    rename_i hne
    split
    · exact ⟨_, rfl, by decide⟩
    · rw [if_pos (Nat.pos_of_ne_zero hne)]
      exact ⟨_, rfl, by decide⟩
  refine ⟨result, ?_, hstatus⟩
  unfold Conn.acknowledge
  rw [hresult]
  dsimp only
  rw [Nat.sub_self, List.take_zero, List.append_nil]

/-- No segment completes a handshake whose SYN was never sent. -/
theorem onSegment (h : Unsent cfg c) (turn : Turn) (seg : VMSegment) :
    ∃ c', c.onSegment cfg turn seg = .ok c' ∧ (c'.registered = true → Unsent cfg c') := by
  have hbumped : Unsent cfg { c with idleTimer := true } := { h with }
  unfold Conn.onSegment
  rw [h.direction]
  dsimp only
  unfold handleReverseTCP
  dsimp only
  split
  · refine ⟨_, rfl, fun hreg => ?_⟩
    have hgone := @abortReverseConnection_registered cfg { c with idleTimer := true } turn
      h.direction false
    exact absurd (hgone.symm.trans hreg) Bool.false_ne_true
  rw [if_pos h.state]
  split
  · obtain ⟨result, hack, hstatus⟩ := hbumped.acknowledge seg.ackNum
    unfold handleReverseSynAck
    rw [hack]
    dsimp only
    rw [if_pos (.inl hstatus)]
    exact ⟨_, rfl, fun _ => hbumped⟩
  · exact ⟨_, rfl, fun _ => hbumped⟩

theorem enqueue (h : Unsent cfg c) {data : Bytes} (hdata : data ≠ []) :
    Unsent cfg (c.bumpActivity.enqueueTCPData cfg data) := by
  rw [bumpActivity_reverse h.direction]
  refine { h with queued := ?_, queueBytes := ?_, chunks := ?_ }
  · change (c.send.sendQueue ++ [data]).flatten = c.send.enqueued ++ data
    rw [List.flatten_append, h.queued]
    simp
  · change c.send.sendQueueBytes + data.length = (c.send.sendQueue ++ [data]).flatten.length
    rw [h.queueBytes, List.flatten_append, List.length_append]
    simp
  · change [] ∉ c.send.sendQueue ++ [data]
    simp only [List.mem_append, List.mem_singleton, not_or]
    exact ⟨h.chunks, hdata.symm⟩

/-- Whatever happens to it, it goes on waiting until it is given up. -/
theorem handle (h : Unsent cfg c) (turn : Turn) (hcan : c.CanOccur event) :
    ∃ c', c.handle cfg turn event = .ok c' ∧ (c'.registered = true → Unsent cfg c') := by
  obtain ⟨hpacer, hack, hbackpressured, hremoval, hretries, himmediates, hwaiting⟩ := h.idle
  cases event with
  | segment seg => exact h.onSegment turn seg
  | sourceData data =>
      have henqueued := h.enqueue hcan.1
      exact ⟨_, henqueued.trySend turn, fun _ => henqueued⟩
  | sourceEnd =>
      have hended : Unsent cfg
          { c with idleTimer := true, send := { c.send with sourceEnded := true, pendingFin := true } } :=
        { h with }
      refine ⟨_, ?_, fun _ => hended⟩
      have hbump := bumpActivity_reverse
        (c := { c with send := { c.send with sourceEnded := true } }) h.direction
      change c.onSourceEnd cfg turn = _
      unfold onSourceEnd
      dsimp only
      rw [if_neg (by rw [h.state]; decide), hbump]
      exact hended.trySend turn
  | localClose =>
      have hclosed : Unsent cfg
          { c with send := { c.send with localClosed := true, pendingFin := true } } := { h with }
      exact ⟨_, hclosed.trySend turn, fun _ => hclosed⟩
  | endpointError =>
      exact ⟨_, rfl, fun hreg => absurd ((abort_registered cfg turn c true).symm.trans hreg)
        Bool.false_ne_true⟩
  | sinkDrain =>
      refine ⟨_, rfl, fun _ => ?_⟩
      unfold onTCPReceiveDrain
      rw [if_pos (by simp [hbackpressured])]
      exact h
  | sinkEnd => exact ⟨_, rfl, fun _ => { h with }⟩
  | retransmissionTimer generation =>
      have hmem : generation ∈ c.send.retransmission.scheduled := hcan
      rw [h.queue] at hmem
      exact absurd hmem List.not_mem_nil
  | pacerTimer => exact absurd (hpacer.symm.trans hcan) Bool.false_ne_true
  | ackTimer => exact absurd (hack.symm.trans hcan) Bool.false_ne_true
  | idleTimer =>
      exact ⟨_, rfl, fun hreg => absurd ((abort_registered cfg turn
        { c with idleTimer := false } true).symm.trans hreg) Bool.false_ne_true⟩
  | removalTimer => exact absurd (hremoval.symm.trans hcan) Bool.false_ne_true
  | rateRetry => exact absurd hretries (Nat.ne_of_gt hcan)
  | immediate => exact absurd himmediates (Nat.ne_of_gt hcan)
  | staleResume => exact ⟨_, h.trySend turn, fun _ => h⟩
  | transportFlush => exact absurd (hwaiting.symm.trans hcan) Bool.false_ne_true
  | otherTraffic rateLimiter => exact ⟨_, rfl, fun _ => { h with }⟩

theorem streamConserved (h : Unsent cfg c) : c.StreamConserved where
  stream := by
    rw [h.acknowledged, h.queue, h.queued]
    rfl
  acknowledged := by
    rw [h.acknowledged, h.queue]
    exact (position_zero _).symm
  queueBytes := by rw [h.queueBytes, List.length_flatten]
  contiguous := by
    rw [h.relaySeq, h.queue]
    rfl

/-- A probe would be in sequence, so it does not throw. -/
theorem onPersistProbe (h : Unsent cfg c) (turn : Turn) :
    (c.onPersistProbe cfg turn c.send.retransmission.oldest).2 ≠ .threw := by
  have holdest : c.send.retransmission.oldest = none := by
    rw [h.queue]
    rfl
  have hopen : c.send.retransmission.closed = false ∧ c.send.retransmission.exhausted = false ∧
      c.send.retransmission.sndNxt = c.send.relayIsn := by
    rw [h.queue]
    exact ⟨rfl, rfl, rfl⟩
  have hnext := h.relaySeq.trans hopen.2.2.symm
  rw [holdest]
  unfold Conn.onPersistProbe
  split
  · rintro ⟨⟩
  split
  · rintro ⟨⟩
  dsimp only
  split
  · rename_i hpos
    have hqueued : 1 ≤ c.send.sendQueue.flatten.length := h.queueBytes ▸ hpos
    obtain ⟨left, htake, -, -⟩ := @takeQueuedBytes_spec maxSafeInteger _ 1 Nat.one_pos
      (by decide) (by decide) hqueued h.chunks
    have hbyte : (c.send.sendQueue.flatten.take 1).length = 1 := List.length_take_of_le hqueued
    have hitems : itemsOf (c.send.sendQueue.flatten.take 1) { ack := true } ≠ [] := by
      intro hnil
      have hlength := congrArg List.length hnil
      rw [itemsOf_length, sequenceLength, hbyte] at hlength
      exact absurd hlength (by simp)
    have hsent := @sendTrackedTCP_eq cfg (c.withSendQueue left) (c.send.sendQueue.flatten.take 1)
      { ack := true } hopen.1 hopen.2.1 hnext (hbyte.trans_le (tcpMss_pos cfg c)) hitems rfl
    rw [htake]
    dsimp only
    rw [hsent]
    rintro ⟨⟩
  split
  · have hsent : c.sendFin cfg = .ok (c.markFin.transmit cfg [] { fin := true, ack := true }) :=
      sendTrackedTCP_eq cfg hopen.1 hopen.2.1 hnext (Nat.zero_le _) (by simp [itemsOf]) rfl
    rw [hsent]
    rintro ⟨⟩
  · rintro ⟨⟩

/-- A timer would find nothing to send again. -/
theorem fireRetransmissionTimer (h : Unsent cfg c) (turn : Turn) (generation : Nat) :
    (c.fireRetransmissionTimer cfg turn generation).registered = c.registered := by
  unfold Conn.fireRetransmissionTimer RetransmissionQueue.fireTimer
  rw [h.queue]
  dsimp only
  split <;> rfl

theorem conserves (h : Unsent cfg c) (hreg : c.registered = true) : c.Conserves cfg := by
  refine ⟨h.streamConserved, fun turn event henabled => ?_, h.onPersistProbe,
    fun turn generation _ => (h.fireRetransmissionTimer turn generation).trans hreg⟩
  obtain ⟨c', hok, -⟩ := h.handle turn henabled.2
  exact ⟨c', hok⟩

end Unsent

theorem unsent_of_reaches {c₀ : Conn} (h : Unsent cfg c₀) (hreaches : Reaches (Step cfg) c₀ c)
    (hcurrent : c.Current) : Unsent cfg c := by
  obtain ⟨labels, hrun⟩ := hreaches
  have hend := hrun.invariant (P := fun c => c.registered = true → Unsent cfg c)
    (fun c label c' hinv ⟨⟨hreg, hcan⟩, hok⟩ => by
      obtain ⟨c₁, hok₁, hunsent⟩ := (hinv hreg).handle label.1 hcan
      exact Except.ok.inj (hok.symm.trans hok₁) ▸ hunsent) fun _ => h
  exact hend hcurrent.1

/-- How an opening can end, by its direction. -/
inductive Opening (cfg : Settings) : Outcome Conn → Prop
  | outbound (rateLimiter : SlidingWindowRateLimiter) (seg : VMSegment) (isn : Seq) :
      Opening cfg (openOutbound cfg rateLimiter seg isn)
  | reverse (rateLimiter : SlidingWindowRateLimiter) (vmIP : IPv4) (srcPort : Port) (port : Int)
      (isn : Seq) : Opening cfg (openReverse cfg rateLimiter vmIP srcPort port isn)

/-- The connection that is in its map after an opening, if it has a
retransmission queue. -/
def registeredBy : Outcome Conn → Option Conn
  | .ok c => some c
  | .error ⟨.options _, _⟩ => none
  | .error thrown => some thrown.conn

/-- The stream of every connection is conserved between any two events, whether
its opening has returned or thrown. -/
def ConservesStreams (cfg : Settings) : Prop :=
  ∀ outcome, Opening cfg outcome → ∃ c₀, registeredBy outcome = some c₀ ∧
    ∀ c, Reaches (Step cfg) c₀ c → c.Current → c.Conserves cfg

/-- A reverse connection conserves its stream even when its opening throws for
its port. -/
theorem openReverse_conserves (h : cfg.RtoAccepted) (rateLimiter : SlidingWindowRateLimiter)
    (vmIP : IPv4) (srcPort : Port) (port : Int) (isn : Seq) :
    ∃ c₀, registeredBy (openReverse cfg rateLimiter vmIP srcPort port isn) = some c₀ ∧
      ∀ c, Reaches (Step cfg) c₀ c → c.Current → c.Conserves cfg := by
  by_cases hport : port < 0 ∨ port > 0xffff
  · rw [openReverse_overflow h hport]
    have hunsent := reverseConn_unsent cfg rateLimiter vmIP srcPort port isn
    exact ⟨_, rfl, fun c hreaches hcurrent =>
      (unsent_of_reaches hunsent hreaches hcurrent).conserves hcurrent.1⟩
  · have hfits : 0 ≤ port ∧ port ≤ 0xffff := by omega
    have hopen := openReverse_transmit h hfits rateLimiter vmIP srcPort isn
    rw [hopen]
    exact ⟨_, rfl, fun c hreaches hcurrent =>
      Reachable.conserves ⟨_, .reverse hopen, hreaches⟩ hcurrent⟩

/-- An outbound connection does not: `relaySeq` counts a SYN-ACK that was never
tracked. -/
theorem outboundConn_not_contiguous (cfg : Settings) (rateLimiter : SlidingWindowRateLimiter)
    (seg : VMSegment) (isn : Seq) :
    ¬(outboundConn cfg rateLimiter seg isn).StreamConserved := by
  intro h
  have hnext : isn + 1 = isn := h.contiguous
  simp at hnext

/-- Something that is pending will run the send loop again: a timer of the queue
or the pacer, the drain of the WebSocket, an immediate, or a retry. -/
def WakeUpPending (c : Conn) : Prop :=
  (c.send.retransmission.timer.isSome = true ∧
      (c.send.retransmission.segments ≠ [] ∨ c.send.retransmission.persist = true)) ∨
    (c.send.pacer.blocked = true ∧ c.send.pacer.timer = true) ∨
    c.send.transportWaiting = true ∨ 0 < c.send.immediates ∨ 0 < c.send.rateRetries

theorem Ready.wakeUpPending (h : Ready cfg c) (hcause : c.HasCause) : c.WakeUpPending := by
  have htimer : ∀ hwants : c.send.retransmission.segments ≠ [] ∨
      c.send.retransmission.persist = true, c.WakeUpPending := fun hwants =>
    .inl ⟨h.timer.mpr ⟨h.sending.opened, h.sending.live, hwants⟩, hwants⟩
  rcases hcause with hseg | hpersist | hblocked | hwaiting | himmediate | hretry
  · exact htimer (.inl hseg)
  · exact htimer (.inr hpersist)
  · exact .inr (.inl ⟨hblocked, Eq.trans h.sending.pacer hblocked⟩)
  · exact .inr (.inr (.inl hwaiting))
  · exact .inr (.inr (.inr (.inl himmediate)))
  · exact .inr (.inr (.inr (.inr hretry)))

/-- Between any two events of a current connection the send loop is not running,
it will run again if anything waits to be sent, and a paused source has filled
the queue above its low-water mark. -/
theorem reachable_wakes_up (h : Reachable cfg c) (hcurrent : c.Current) :
    c.send.sending = false ∧ (c.NeedsWake → c.WakeUpPending) ∧
      (c.send.sendSourcePaused = true → cfg.sendQueueLowWaterBytes < c.send.sendQueueBytes) :=
  have hlive := h.live hcurrent
  ⟨hlive.stopped, fun hneeds => hlive.wakeUpPending (hlive.wakes hneeds), hlive.sending.paused⟩

/-- With the WebSocket backed up, a connection waits for it to drain. -/
theorem reachable_wakes_up_backpressure :
    ∃ c : Conn, c.send.sendQueue = [[1]] ∧ c.send.retransmission.segments = [] ∧ c.WakeUpPending := by
  obtain ⟨c, hrun, hc⟩ := exists_run {} exampleReverse
    [({}, .segment exampleSynAck), ({ bufferedAmount := fun _ => 100000 }, .sourceData [1])]
    (fun c => c.registered && c.state ≠ .closed && c.send.sendQueue = [[1]] &&
      c.send.retransmission.segments.isEmpty) (by decide)
  simp only [Bool.and_eq_true, decide_eq_true_eq, List.isEmpty_iff] at hc
  obtain ⟨⟨⟨hreg, hstate⟩, hqueue⟩, hsegments⟩ := hc
  have hneeds : c.NeedsWake := .inl (by rw [hqueue]; nofun)
  exact ⟨c, hqueue, hsegments, (reachable_wakes_up
    ⟨exampleReverse, opened_exampleReverse, _, hrun⟩ ⟨hreg, hstate⟩).2.1 hneeds⟩

/-- At most one FIN has been tracked, nothing after it, and everything that was
ever enqueued before it. -/
structure FinUniqueLast (c : Conn) : Prop where
  unique : c.stream.history.count .fin ≤ 1
  last : .fin ∈ c.stream.history → ∃ front, c.stream.history = front ++ [.fin]
  complete : .fin ∈ c.stream.history →
    c.send.sendQueue = [] ∧ dataOf c.stream.history = c.send.enqueued

/-- The callback keeps the FIN unique and last. -/
def Orderly (c : Conn) (label : Turn × Event) : Prop := ¬c.Improper label.1 label.2

instance (c : Conn) (label : Turn × Event) : Decidable (c.Orderly label) :=
  inferInstanceAs (Decidable (¬_))

/-- What `FinLast` says of the items, in terms of all that was ever enqueued. -/
theorem Sending.finUniqueLast (h : c.Sending cfg) (hlast : c.stream.FinLast itemFormat) :
    c.FinUniqueLast := by
  have hover : .fin ∈ c.stream.history → c.stream.finished = true := h.finTracked.mp
  refine ⟨hlast.count_le, fun hmem => ?_, fun hmem => ?_⟩
  · obtain ⟨-, front, hfront, -⟩ := hlast.finished (hover hmem)
    exact ⟨front, hfront⟩
  · have hempty : c.stream.queued = [] := (hlast.finished (hover hmem)).1
    have hconserved := h.conserved
    rw [State.Conserved, filterMap_itemFormat, hempty, List.append_nil] at hconserved
    refine ⟨?_, hconserved⟩
    by_contra hne
    have hpos := h.sendQueueBytes_pos hne
    rw [h.queueBytes] at hpos
    change 0 < c.stream.queued.length at hpos
    rw [hempty] at hpos
    cases hpos

/-- Along an orderly run the outgoing stream only makes proper moves, as long as
the connection is current. -/
theorem Live.moves_of_orderly {labels : List (Turn × Event)} (h : Live cfg c)
    (hrun : Run (Restrict (Step cfg) Orderly) c labels c') (hcurrent : c'.Current) :
    Live cfg c' ∧ Moves Proper c c' := by
  have hinv : c'.registered = true → Finished cfg c' ∨ Live cfg c' ∧ Moves Proper c c' := by
    refine hrun.invariant (P := fun d => d.registered = true →
      Finished cfg d ∨ Live cfg d ∧ Moves Proper c d) ?_ fun _ => .inr ⟨h, .refl _⟩
    rintro d ⟨turn, event⟩ d' hd ⟨horderly, henabled, hstep⟩ hreg
    rcases hd henabled.1 with hfinished | ⟨hlive, hmoves⟩
    · obtain ⟨e, hok, hout, -⟩ := hfinished.handle turn henabled.2
      obtain rfl := Except.ok.inj (hstep.symm.trans hok)
      exact .inl (hout.resolve_left fun hgone => absurd (hgone.symm.trans hreg) Bool.false_ne_true)
    · obtain ⟨e, hok, hout⟩ := Live.handle Proper hlive turn henabled.2 (fun _ _ hp => hp)
        fun himproper => absurd himproper horderly
      obtain rfl := Except.ok.inj (hstep.symm.trans hok)
      rcases hout with hgone | hfin | ⟨hlive', hmoves'⟩
      · exact absurd (hgone.symm.trans hreg) Bool.false_ne_true
      · exact .inl hfin
      · exact .inr ⟨hlive', hmoves.trans hmoves'⟩
  exact (hinv hcurrent.1).resolve_left fun hfinished => hcurrent.2 hfinished.state

/-- In an orderly run the FIN is unique and last, and from the moment it is
tracked nothing occupies new sequence space. -/
theorem orderly_fin_unique_last {c₀ : Conn} {labels labels' : List (Turn × Event)}
    (hopen : Opened cfg c₀) (hrun : Run (Restrict (Step cfg) Orderly) c₀ labels c)
    (hcurrent : c.Current) (hrun' : Run (Restrict (Step cfg) Orderly) c labels' c')
    (hcurrent' : c'.Current) :
    c.FinUniqueLast ∧ (.fin ∈ c.stream.history → c'.stream.history = c.stream.history) := by
  obtain ⟨hlive, hmoves⟩ := hopen.live.moves_of_orderly hrun hcurrent
  obtain ⟨-, hmoves'⟩ := hlive.moves_of_orderly hrun' hcurrent'
  have hlast := finLast_of_reaches hmoves hopen.finLast
  refine ⟨hlive.sending.finUniqueLast hlast, fun hmem => ?_⟩
  have hsteps : Reaches (SendStream.Step itemFormat) c.stream c'.stream := by
    obtain ⟨es, hes⟩ := hmoves'
    exact ⟨es, hes.unrestrict⟩
  exact (finLast_of_reaches hmoves' hlast).history_eq (history_prefix_of_reaches hsteps) hmem

/-- An upload that ends: its FIN follows its data. -/
theorem orderly_fin_unique_last_upload :
    ∃ c : Conn, c.stream.history = [.syn, .byte 1, .fin] ∧ c.FinUniqueLast := by
  obtain ⟨c, hrun, hc⟩ := exists_restricted_run {} Orderly exampleReverse
    [({}, .segment exampleSynAck), ({}, .sourceData [1]), ({}, .sourceEnd)]
    (fun c => c.registered && c.state ≠ .closed && c.stream.history = [.syn, .byte 1, .fin])
    (by decide)
  simp only [Bool.and_eq_true, decide_eq_true_eq] at hc
  obtain ⟨⟨hreg, hstate⟩, hhistory⟩ := hc
  exact ⟨c, hhistory, (orderly_fin_unique_last opened_exampleReverse hrun ⟨hreg, hstate⟩ (.nil c)
    ⟨hreg, hstate⟩).1⟩

/-- A forward whose local client closes first. Data of `upstream` that is still
buffered goes out behind the FIN; and where the FIN is acknowledged together
with a closed window, the `close` of `upstream` makes the persist timer send
another. -/
theorem fin_not_last_not_unique :
    (∃ c, Reachable {} c ∧ c.Current ∧ c.stream.history = [.syn, .fin, .byte 1] ∧
      ¬c.FinUniqueLast) ∧
    ∃ c, Reachable {} c ∧ c.Current ∧ c.stream.history = [.syn, .fin, .fin] ∧
      ¬c.FinUniqueLast := by
  constructor
  · obtain ⟨c, hrun, hc⟩ := exists_run {} exampleReverse
      [({}, .segment exampleSynAck), ({}, .localClose), ({}, .sourceData [1])]
      (fun c => c.registered && c.state ≠ .closed && c.stream.history = [.syn, .fin, .byte 1])
      (by decide)
    simp only [Bool.and_eq_true, decide_eq_true_eq] at hc
    obtain ⟨⟨hreg, hstate⟩, hhistory⟩ := hc
    refine ⟨c, ⟨_, opened_exampleReverse, _, hrun⟩, ⟨hreg, hstate⟩, hhistory, fun hfin => ?_⟩
    obtain ⟨front, hlast⟩ := hfin.last (by simp [hhistory])
    have := congrArg List.getLast? (hhistory.symm.trans hlast)
    simp at this
  · obtain ⟨c, hrun, hc⟩ := exists_run {} exampleReverse
      [({}, .segment exampleSynAck), ({}, .localClose),
        ({}, .segment { seqNum := 100#32, ackNum := 9#32, ack := true }), ({}, .sourceEnd),
        ({}, .retransmissionTimer 6)]
      (fun c => c.registered && c.state ≠ .closed && c.stream.history = [.syn, .fin, .fin])
      (by decide)
    simp only [Bool.and_eq_true, decide_eq_true_eq] at hc
    obtain ⟨⟨hreg, hstate⟩, hhistory⟩ := hc
    refine ⟨c, ⟨_, opened_exampleReverse, _, hrun⟩, ⟨hreg, hstate⟩, hhistory, fun hfin => ?_⟩
    have := hfin.unique
    rw [hhistory] at this
    simp at this

end Conn

end RootlessRelay
