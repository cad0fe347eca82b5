import RootlessRelay.Tcp.SegmentBooks

/-!
# Runs of a connection in the books

Every callback of a connection is a sequence of deeds that are due in it, from
the ledger the connection kept before to the one it keeps afterwards. So what
every deed keeps holds in every run: all segments are cut from one stream, the
congestion window is earned, and an endpoint that heeds the pause does not
overrun the queue.

The three results are proved in one way. A property of ledgers that holds of the
ledger of a new connection, and that every deed keeps, holds of a ledger of
every reachable connection (`Reachable.exists_ledger`); what it says is then
read off the connection.
-/

namespace RootlessRelay

open SequenceSpace Transition SendStream

/-- The ledger of a connection that has just been opened: its SYN is out. -/
def Ledger.opening (cfg : Settings) (isn : Seq) (window : Nat)
    (rateLimiter : SlidingWindowRateLimiter) : Ledger where
  stream := ⟨[], [.syn], [], [], false⟩
  window
  congestion := min cfg.initialCwndBytes cfg.tcpWindowSize
  paused := false
  isn
  emitted := [(0, [.syn])]
  rateLimiter

namespace Conn

variable {cfg : Settings} {c c' : Conn} {turn : Turn} {quiet : Nat} {event : Event}

/-- The first segment of a new connection opens its ledger. -/
theorem kept_transmit {b : Conn} {isn : Seq} {vmWindow sendMss : Nat} {flags : Flags}
    (hsend : b.send = initializeRetransmission cfg isn isn vmWindow sendMss) (hsent : b.sent = [])
    (hsyn : flags.syn = true) (hfin : flags.fin = false) (hrst : flags.rst = false) :
    (b.transmit cfg [] flags).Kept (Ledger.opening cfg isn vmWindow b.rateLimiter) := by
  have hitems : itemsOf [] flags = [.syn] := by simp [itemsOf, hsyn, hfin]
  have hwire : (b.wire cfg b.send.relaySeq [] flags).occupies = true := by
    refine (occupies_iff _).mpr ⟨hrst, ?_⟩
    change itemsOf [] flags ≠ []
    rw [hitems]
    exact List.cons_ne_nil _ _
  refine ⟨?_, ?_, ?_, rfl, ?_, fun _ => ?_⟩
  · change isn = b.send.relayIsn
    rw [hsend]
    rfl
  · change [] = b.send.enqueued
    rw [hsend]
    rfl
  · change occupied (b.sent ++ [b.wire cfg b.send.relaySeq [] flags]) = _
    rw [hsent, List.nil_append, occupied_single hwire]
    change [(b.send.relaySeq, itemsOf [] flags)] = [(position b.send.relayIsn 0, [.syn])]
    rw [hitems, position_zero, hsend]
    rfl
  · refine Eq.trans ?_ (RetransmissionQueue.tracked_closed (q := b.send.retransmission)).symm
    rw [hsend]
    rfl
  · have houtstanding : (b.send.retransmission.tracked ⟨b.send.relaySeq, [], flags⟩).items =
        [.syn] := by
      rw [RetransmissionQueue.tracked_items, hitems, hsend]
      rfl
    change _ = (⟨⟨b.send.acknowledged, (b.send.retransmission.tracked _).items,
      b.send.sendQueue.flatten, b.send.enqueued, b.send.finSent⟩, b.send.vmWindow,
      b.send.congestionWindow, b.send.sendSourcePaused⟩ : Standing)
    rw [houtstanding, hsend]
    rfl

theorem Opened.kept (h : Opened cfg c) :
    ∃ isn window, c.Kept (Ledger.opening cfg isn window c.rateLimiter) := by
  cases h with
  | outbound hopen =>
      obtain rfl := transmit_of_openOutbound hopen
      exact ⟨_, _, kept_transmit rfl rfl rfl rfl rfl⟩
  | reverse hopen =>
      obtain rfl := transmit_of_openReverse hopen
      exact ⟨_, _, kept_transmit rfl rfl rfl rfl rfl⟩

/-- Data of the endpoint is enqueued, and may pause it. -/
theorem enqueueTCPData_acts (h : c.Sending cfg) {data : Bytes} (hdata : data ≠ [])
    {start : Conn} (hpaused : start.send.sendSourcePaused = c.send.sendSourcePaused) :
    Acts cfg (Due start turn quiet (.sourceData data)) c (c.enqueueTCPData cfg data) := by
  obtain ⟨hsending, hstep⟩ := h.enqueue hdata
  refine .single h.opened fun l hkept hopen hstanding => ?_
  have hstream : l.stream = c.stream := congrArg Standing.stream hstanding
  have hsame : l.paused = c.send.sendSourcePaused := congrArg Standing.paused hstanding
  have hmoved : SendStream.Step itemFormat l.stream (.enqueue data)
      (c.enqueueTCPData cfg data).stream := by
    rw [hstream]
    exact hstep
  refine ⟨.enqueue data, _, ⟨rfl, hsame.trans hpaused.symm⟩, .enqueue hopen hdata hmoved,
    hkept.isn, rfl, hkept.emitted, hkept.rateLimiter, hkept.closed, fun _ => ?_⟩
  have hbytes : c.send.sendQueueBytes + data.length =
      (c.enqueueTCPData cfg data).stream.queued.length := hsending.queueBytes
  change (⟨_, l.window, l.congestion, l.paused || decide (_ ≥ cfg.sendQueueHighWaterBytes)⟩ :
    Standing) = ⟨_, _, _, c.send.sendSourcePaused ||
      decide (c.send.sendQueueBytes + data.length ≥ cfg.sendQueueHighWaterBytes)⟩
  rw [hbytes, hstanding]
  rfl

theorem onSegment_acts (h : Live cfg c) {seg : VMSegment}
    (hok : c.onSegment cfg turn seg = .ok c') :
    ∃ quiet, Acts cfg (Due c turn quiet (.segment seg)) c c' := by
  unfold onSegment at hok
  cases hdir : c.direction with
  | outbound =>
      rw [hdir] at hok
      exact handleTCP_acts h hdir hdir rfl hok
  | reverse =>
      rw [hdir] at hok
      exact ⟨0, handleReverseTCP_acts h hdir hdir rfl hok⟩

theorem bumpActivity_acts (cfg : Settings) (due : Ledger → Deed → Prop) (c : Conn) :
    Acts cfg due c c.bumpActivity := by
  obtain ⟨idleTimer, he⟩ := bumpActivity_eq c
  rw [he]
  exact .of_account rfl

/-- Before the send loop a callback touches little but the queue of the
endpoint. -/
structure Primed (event : Event) (c c₁ : Conn) : Prop where
  direction : c₁.direction = c.direction
  registered : c₁.registered = c.registered
  state : c₁.state = c.state
  sending : c₁.send.sending = c.send.sending
  segments : c₁.send.retransmission.segments = c.send.retransmission.segments
  localClosed : event ≠ .localClose → c₁.send.localClosed = c.send.localClosed

/-- What comes before the send loop in a callback: no deed, or the endpoint's
data. -/
theorem Live.acts_before (h : Live cfg c) (turn : Turn) (hcan : c.CanOccur event)
    (hdrains : Drains event) :
    ∃ c₁, c.handle cfg turn event = c₁.trySend cfg turn ∧ c₁.Sending cfg ∧
      Primed event c c₁ ∧ ∀ quiet, Acts cfg (Due c turn quiet event) c c₁ := by
  have hs := h.sending
  cases event with
  | sourceData data =>
      obtain ⟨idleTimer, hbump⟩ := bumpActivity_eq c
      have hbumped : ({ c with idleTimer } : Conn).Sending cfg := { hs with }
      have hfirst := fun quiet => bumpActivity_acts cfg (Due c turn quiet (.sourceData data)) c
      refine ⟨c.bumpActivity.enqueueTCPData cfg data, rfl, ?_⟩
      rw [hbump] at hfirst ⊢
      exact ⟨(hbumped.enqueue hcan.1).1, ⟨rfl, rfl, rfl, rfl, rfl, fun _ => rfl⟩,
        fun quiet => (hfirst quiet).trans (enqueueTCPData_acts hbumped hcan.1 rfl)⟩
  | sourceEnd =>
      have hended : c.send.sourceEnded = false := hcan
      obtain ⟨idleTimer, hbump⟩ :=
        bumpActivity_eq { c with send := { c.send with sourceEnded := true } }
      have hready := (h.withIdleTimer idleTimer).toReady.endpointEnded true c.send.localClosed
        (by simp [hended, Nat.add_comm]) fun hdir => (h.outbound hdir).1
      unfold Conn.handle onSourceEnd
      dsimp only
      rw [if_neg hs.notClosed, hbump]
      exact ⟨_, rfl, hready.sending, ⟨rfl, rfl, rfl, rfl, rfl, fun _ => rfl⟩,
        fun _ => .of_account rfl⟩
  | localClose =>
      obtain ⟨hdir, hclosed⟩ : c.direction = .reverse ∧ c.send.localClosed = false := hcan
      have hready := h.toReady.endpointEnded c.send.sourceEnded true (by simp [hclosed])
        fun hd => absurd (hdir.symm.trans hd) (by decide)
      exact ⟨_, rfl, hready.sending, ⟨rfl, rfl, rfl, rfl, rfl, fun hne => absurd rfl hne⟩,
        fun _ => .of_account rfl⟩
  | pacerTimer => exact ⟨_, rfl, { hs with pacer := Pacer.fireTimer_timerExact _ },
      ⟨rfl, rfl, rfl, rfl, rfl, fun _ => rfl⟩,
        fun _ => .of_account rfl⟩
  | rateRetry =>
      exact ⟨_, rfl, { hs with }, ⟨rfl, rfl, rfl, rfl, rfl, fun _ => rfl⟩,
        fun _ => .of_account rfl⟩
  | immediate =>
      exact ⟨_, rfl, { hs with }, ⟨rfl, rfl, rfl, rfl, rfl, fun _ => rfl⟩,
        fun _ => .of_account rfl⟩
  | staleResume => exact ⟨c, rfl, hs, ⟨rfl, rfl, rfl, rfl, rfl, fun _ => rfl⟩,
      fun _ => .refl c⟩
  | _ => exact absurd hdrains id

/-- Every callback of a live connection is a sequence of deeds that are due in
it. -/
theorem Live.acts (h : Live cfg c) (hcan : c.CanOccur event)
    (hok : c.handle cfg turn event = .ok c') : ∃ quiet, Acts cfg (Due c turn quiet event) c c' := by
  by_cases hdrains : Drains event
  · obtain ⟨c₁, hhandle, hsending, hprimed, hfirst⟩ := h.acts_before turn hcan hdrains
    rw [hhandle] at hok
    obtain ⟨quiet, hsent⟩ : ∃ quiet, Acts cfg (Due c turn quiet event) c₁ c' :=
      trySend_acts hsending hprimed.direction hok
    exact ⟨quiet, (hfirst quiet).trans hsent⟩
  cases event with
  | segment seg => exact onSegment_acts h hok
  | endpointError =>
      cases hok
      exact ⟨0, abort_acts turn c true⟩
  | sinkDrain =>
      cases hok
      exact ⟨0, onTCPReceiveDrain_acts c⟩
  | sinkEnd =>
      cases hok
      exact ⟨0, .of_account rfl⟩
  | retransmissionTimer generation =>
      cases hok
      exact ⟨0, fireRetransmissionTimer_acts h generation ⟨generation, rfl⟩⟩
  | ackTimer =>
      cases hok
      exact ⟨0, fireAckTimer_acts c⟩
  | idleTimer =>
      cases hok
      have hfired : Acts cfg (Due c turn 0 .idleTimer) c { c with idleTimer := false } :=
        .of_account rfl
      exact ⟨0, hfired.trans (abort_acts turn _ true)⟩
  | removalTimer =>
      cases hok
      exact ⟨0, .of_account rfl⟩
  | transportFlush =>
      cases hok
      exact ⟨0, .of_account rfl⟩
  | otherTraffic rateLimiter =>
      cases hok
      exact ⟨0, .single h.sending.opened fun l hkept hopen hstanding => ⟨.lend rateLimiter,
        { l with rateLimiter }, rfl, .lend l rateLimiter, hkept.isn, hkept.enqueued,
        hkept.emitted, rfl, hkept.closed, fun _ => hstanding⟩⟩
  | _ => exact absurd trivial hdrains

/-- Nothing that the books of a closed connection still show has changed. -/
theorem Acts.of_closed {start : Conn} (hclosed : c'.send.retransmission.closed = true)
    (henqueued : c'.send.enqueued = c.send.enqueued)
    (hisn : c'.send.relayIsn = c.send.relayIsn) (hsent : c'.sent = c.sent)
    (hlimiter : c'.rateLimiter = c.rateLimiter) : Acts cfg (Due start turn quiet event) c c' :=
  .close hclosed henqueued hisn (by rw [hsent]) hlimiter

theorem Finished.acts_handleTCP {start : Conn} (h : Finished cfg c) {seg : VMSegment}
    (hok : c.handleTCP cfg turn seg = .ok c') : Acts cfg (Due start turn quiet event) c c' := by
  obtain habort | ⟨send, hwaits, hfinished, henqueued, hisn⟩ := h.handleTCP_cases turn seg
  · cases habort.symm.trans hok
    exact abortTCPConnection_acts turn c false
  · cases hwaits.symm.trans hok
    exact .of_closed hfinished.closed henqueued hisn rfl rfl

/-- So is every callback of a connection that waits to be removed; there is
nothing left to do but close the books. -/
theorem Finished.acts (h : Finished cfg c) (hcan : c.CanOccur event)
    (hok : c.handle cfg turn event = .ok c') : Acts cfg (Due c turn quiet event) c c' := by
  cases event with
  | segment seg =>
      simp only [Conn.handle, onSegment, h.direction] at hok
      exact h.acts_handleTCP hok
  | sourceData data => exact absurd (hcan.2.symm.trans h.sourceEnded) Bool.false_ne_true
  | sourceEnd => exact absurd (Eq.trans (Eq.symm hcan) h.sourceEnded) Bool.false_ne_true
  | localClose => exact absurd (hcan.1.symm.trans h.direction) (by decide)
  | endpointError =>
      cases hok
      exact abort_acts turn c true
  | sinkDrain =>
      cases hok
      exact onTCPReceiveDrain_acts c
  | sinkEnd =>
      cases hok
      exact .of_account rfl
  | retransmissionTimer generation =>
      simp only [Conn.handle, fireRetransmissionTimer_superseded cfg turn (.inr (.inl h.closed))]
        at hok
      cases hok
      exact .of_account rfl
  | pacerTimer =>
      have hfired : Finished cfg
          { c with send := { c.send with pacer := c.send.pacer.fireTimer } } := { h with }
      cases (hfired.trySend turn).symm.trans hok
      exact .of_account rfl
  | ackTimer =>
      cases hok
      exact fireAckTimer_acts c
  | idleTimer =>
      cases hok
      have hfired : Acts cfg (Due c turn quiet .idleTimer) c { c with idleTimer := false } :=
        .of_account rfl
      exact hfired.trans (abort_acts turn _ true)
  | removalTimer =>
      cases hok
      exact .of_account rfl
  | rateRetry =>
      have hretried : Finished cfg
          { c with send := { c.send with rateRetries := c.send.rateRetries - 1 } } := { h with }
      cases (hretried.trySend turn).symm.trans hok
      exact .of_account rfl
  | immediate =>
      have hresumed : Finished cfg
          { c with send := { c.send with immediates := c.send.immediates - 1 } } := { h with }
      cases (hresumed.trySend turn).symm.trans hok
      exact .of_account rfl
  | staleResume =>
      cases (h.trySend turn).symm.trans hok
      exact .refl c
  | transportFlush =>
      cases hok
      exact .of_account rfl
  | otherTraffic rateLimiter =>
      cases hok
      refine fun l hkept => ⟨{ l with rateLimiter }, ⟨[.lend rateLimiter],
        .single ⟨rfl, .lend l rateLimiter⟩⟩, hkept.isn, hkept.enqueued, hkept.emitted, rfl,
        hkept.closed, fun hopen => ?_⟩
      exact absurd (hopen.symm.trans h.closed) Bool.false_ne_true

theorem Inv.acts (h : Inv cfg c) {label : Turn × Event} (hstep : Step cfg c label c') :
    ∃ quiet, Acts cfg (Due c label.1 quiet label.2) c c' := by
  obtain ⟨⟨hreg, hcan⟩, hok⟩ := hstep
  rcases h hreg with hlive | hfinished
  · exact hlive.acts hcan hok
  · exact ⟨0, hfinished.acts hcan hok⟩

variable {allowed : Conn → Turn × Event → Prop} {P : Ledger → Prop} {c₀ : Conn}
  {labels : List (Turn × Event)}

/-- A property that the deeds keep holds of the ledger that is kept afterwards. -/
theorem Acts.keep {due : Ledger → Deed → Prop} (hacts : Acts cfg due c c')
    (keep : ∀ l deed l', due l deed → Ledger.Step cfg l deed l' → P l → P l')
    (h : ∃ l, c.Kept l ∧ P l) : ∃ l, c'.Kept l ∧ P l := by
  obtain ⟨l, hkept, hl⟩ := h
  obtain ⟨l', hreaches, hkept'⟩ := hacts l hkept
  exact ⟨l', hkept', hreaches.invariant (fun _ _ _ hl hstep => keep _ _ _ hstep.1 hstep.2 hl) hl⟩

/-- What the opening ledger satisfies and every deed that is due keeps, some
ledger of every later connection satisfies. -/
theorem Opened.exists_ledger (hopen : Opened cfg c₀)
    (hrun : Run (Restrict (Step cfg) allowed) c₀ labels c)
    (first : ∀ isn window, P (.opening cfg isn window c₀.rateLimiter))
    (keep : ∀ b label quiet l deed l', allowed b label → Due b label.1 quiet label.2 l deed →
      Ledger.Step cfg l deed l' → P l → P l') : ∃ l, c.Kept l ∧ P l := by
  obtain ⟨isn, window, hkept⟩ := hopen.kept
  have hstart : Inv cfg c₀ ∧ ∃ l, c₀.Kept l ∧ P l := ⟨hopen.inv, _, hkept, first isn window⟩
  have hend := hrun.invariant (P := fun c => Inv cfg c ∧ ∃ l, c.Kept l ∧ P l)
    (fun b label c ⟨hinv, hl⟩ hstep => by
      obtain ⟨quiet, hacts⟩ := hinv.acts hstep.2
      exact ⟨hinv.step hstep.2,
        hacts.keep (fun _ _ _ hdue => keep b label quiet _ _ _ hstep.1 hdue) hl⟩) hstart
  exact hend.2

/-- A property of new ledgers that deeds keep holds of a ledger of every
reachable connection. -/
theorem Reachable.exists_ledger (h : Reachable cfg c)
    (first : ∀ isn window rateLimiter, P (.opening cfg isn window rateLimiter))
    (keep : ∀ l deed l', Ledger.Step cfg l deed l' → P l → P l') : ∃ l, c.Kept l ∧ P l := by
  obtain ⟨c₀, hopen, labels, hrun⟩ := h
  have hfree : Run (Restrict (Step cfg) fun _ _ => True) c₀ labels c :=
    hrun.mono fun _ _ _ hstep => ⟨trivial, hstep⟩
  exact hopen.exists_ledger hfree (fun isn window => first isn window _)
    fun _ _ _ _ _ _ _ _ hstep hl => keep _ _ _ hstep hl

theorem consistent_opening (cfg : Settings) (isn : Seq) (window : Nat)
    (rateLimiter : SlidingWindowRateLimiter) :
    (Ledger.opening cfg isn window rateLimiter).Consistent := by
  intro place items hmem
  obtain ⟨rfl, rfl⟩ := Prod.mk.inj (List.mem_singleton.mp hmem)
  exact List.prefix_rfl

/-- `wire` carries items of `stream`, at the place its sequence number says. -/
def PlacedIn (stream : List Item) (isn : Seq) (wire : WireSegment) : Prop :=
  ∃ place, wire.sequence = position isn place ∧
    itemsOf wire.payload wire.flags <+: stream.drop place

/-- What has been sent is placed in the stream of the ledger. -/
theorem Kept.placedIn {l : Ledger} (hkept : c.Kept l) (hl : l.Consistent) {wire : WireSegment}
    (hwire : wire ∈ c.sent) (hoccupies : wire.occupies = true) :
    PlacedIn l.stream.history c.send.relayIsn wire := by
  have hmem : (wire.sequence, itemsOf wire.payload wire.flags) ∈ occupied c.sent :=
    List.mem_map_of_mem (List.mem_filter.mpr ⟨hwire, hoccupies⟩)
  rw [hkept.emitted] at hmem
  obtain ⟨⟨place, items⟩, hplaced, hsame⟩ := List.mem_map.mp hmem
  obtain ⟨hsequence, hitems⟩ := Prod.mk.inj hsame
  refine ⟨place, hsequence.symm, ?_⟩
  rw [← hitems]
  exact hl place items hplaced

/-- Whatever has been retransmitted, probed or cut into other segments, every
segment that occupies sequence space comes from one stream, and its payload is
what the endpoint sent. -/
theorem sent_from_one_stream (h : Reachable cfg c) :
    ∃ stream, dataOf stream <+: c.send.enqueued ∧
      ∀ wire ∈ c.sent, wire.occupies = true → PlacedIn stream c.send.relayIsn wire := by
  obtain ⟨l, hkept, hconsistent, hconserved⟩ :=
    h.exists_ledger (P := fun l => l.Consistent ∧ l.stream.Conserved itemFormat)
      (fun isn window rateLimiter => ⟨consistent_opening cfg isn window rateLimiter, rfl⟩)
      fun _ _ _ hstep hl => ⟨hstep.consistent hl.1, hstep.conserved hl.2⟩
  refine ⟨l.stream.history, ⟨l.stream.queued, ?_⟩,
    fun wire hwire => hkept.placedIn hconsistent hwire⟩
  rw [← hkept.enqueued]
  exact hconserved

/-- The first segment with payload is sent twice. -/
theorem sent_from_one_stream_retransmitted : ∃ c : Conn,
    (c.sent.map fun wire => (wire.sequence, wire.payload)) =
        [(7#32, []), (8#32, []), (8#32, [1]), (9#32, [2, 3]), (8#32, [1])] ∧
      ∃ stream, dataOf stream <+: c.send.enqueued ∧
        ∀ wire ∈ c.sent, wire.occupies = true → PlacedIn stream c.send.relayIsn wire := by
  obtain ⟨c, hrun, hc⟩ := exists_run {} exampleReverse
    [({}, .segment exampleSynAck), ({}, .sourceData [1]), ({}, .sourceData [2, 3]),
      ({}, .retransmissionTimer 3)]
    (fun c => (c.sent.map fun wire => (wire.sequence, wire.payload)) =
      [(7#32, []), (8#32, []), (8#32, [1]), (9#32, [2, 3]), (8#32, [1])]) (by decide)
  exact ⟨c, of_decide_eq_true hc,
    sent_from_one_stream ⟨exampleReverse, opened_exampleReverse, _, hrun⟩⟩

theorem solvent_opening (cfg : Settings) (isn : Seq) (window : Nat)
    (rateLimiter : SlidingWindowRateLimiter) :
    (Ledger.opening cfg isn window rateLimiter).Solvent cfg := by
  refine ⟨?_, Nat.zero_le _⟩
  exact (Nat.min_le_left _ _).trans ((Nat.le_max_left _ _).trans (Nat.le_add_right _ _))

/-- The congestion window and the payload in flight have been earned: beyond a
start they do not exceed the payload that the VM has acknowledged. -/
theorem congestion_earned (h : Reachable cfg c) (hcurrent : c.Current) :
    max c.send.congestionWindow c.send.retransmission.payloadBytesInFlight ≤
      max cfg.initialCwndBytes (2 * cfg.TCP_MSS) + (dataOf c.send.acknowledged).length := by
  have hsending := (h.live hcurrent).sending
  obtain ⟨l, hkept, hsolvent⟩ := h.exists_ledger (P := Ledger.Solvent cfg)
    (solvent_opening cfg) fun _ _ _ hstep hl => hstep.solvent hl
  have hstanding := hkept.standing hsending.opened
  have hcongestion : l.congestion = c.send.congestionWindow :=
    congrArg Standing.congestion hstanding
  have hacknowledged : l.stream.acknowledged = c.send.acknowledged :=
    congrArg (fun standing : Standing => standing.stream.acknowledged) hstanding
  have hflight := inFlight_eq hsending hstanding
  have hcredit : l.credit cfg = max cfg.initialCwndBytes (2 * cfg.TCP_MSS) +
      (dataOf c.send.acknowledged).length := by
    rw [Ledger.credit, hacknowledged]
  rw [← hcredit, ← hcongestion, ← hflight]
  exact Nat.max_le.mpr ⟨hsolvent.congestion, hsolvent.inFlight⟩

theorem congestion_earned_acknowledged : ∃ c : Conn, c.send.congestionWindow = 10240 ∧
    dataOf c.send.acknowledged = [1] ∧
    max c.send.congestionWindow c.send.retransmission.payloadBytesInFlight ≤
      max ({} : Settings).initialCwndBytes (2 * ({} : Settings).TCP_MSS) +
        (dataOf c.send.acknowledged).length := by
  obtain ⟨c, hrun, hc⟩ := exists_run {} exampleReverse
    [({}, .segment exampleSynAck), ({}, .sourceData [1]), ({}, .sourceData [2, 3]),
      ({}, .segment { seqNum := 100#32, ackNum := 9#32, ack := true, window := 1000#16 })]
    (fun c => c.registered && c.state ≠ .closed && c.send.congestionWindow = 10240 &&
      dataOf c.send.acknowledged = [1]) (by decide)
  simp only [Bool.and_eq_true, decide_eq_true_eq] at hc
  obtain ⟨⟨⟨hreg, hstate⟩, hcongestion⟩, hacknowledged⟩ := hc
  exact ⟨c, hcongestion, hacknowledged,
    congestion_earned ⟨exampleReverse, opened_exampleReverse, _, hrun⟩ ⟨hreg, hstate⟩⟩

/-- While it is paused the endpoint sends nothing, and otherwise at most `chunk`
bytes at a time. -/
def HeedsPause (chunk : Nat) (c : Conn) (label : Turn × Event) : Prop :=
  match label.2 with
  | .sourceData data => c.send.sendSourcePaused = false ∧ data.length ≤ chunk
  | _ => True

/-- What an endpoint does that heeds the pause is heeded in the books. -/
theorem heeds_of_due {chunk : Nat} {label : Turn × Event} {l : Ledger} {deed : Deed}
    (hheeds : HeedsPause chunk c label) (hdue : Due c label.1 quiet label.2 l deed) :
    l.Heeds chunk deed := by
  cases deed with
  | enqueue data =>
      obtain ⟨hevent, hpaused⟩ := hdue
      unfold HeedsPause at hheeds
      rw [hevent] at hheeds
      exact ⟨hpaused.trans hheeds.1, hheeds.2⟩
  | _ => trivial

/-- The queue never holds more than the high-water mark and one chunk. The
endpoint is resumed when the low-water mark is reached, and paused again at the
high-water mark. -/
theorem queue_bounded {chunk : Nat} (hopen : Opened cfg c₀)
    (hrun : Run (Restrict (Step cfg) (HeedsPause chunk)) c₀ labels c) (hcurrent : c.Current) :
    c.send.sendQueueBytes < cfg.sendQueueHighWaterBytes + chunk ∧
      (c.send.sendSourcePaused = false → c.send.sendQueueBytes < cfg.sendQueueHighWaterBytes) ∧
      (c.send.sendSourcePaused = true → cfg.sendQueueLowWaterBytes < c.send.sendQueueBytes) := by
  have hsending := (Reachable.live ⟨c₀, hopen, labels, hrun.unrestrict⟩ hcurrent).sending
  have hhigh : 0 < cfg.sendQueueHighWaterBytes :=
    Nat.zero_lt_of_lt cfg.lowWater_lt_highWater
  obtain ⟨l, hkept, hwatched, hqueue⟩ := hopen.exists_ledger (P := fun l => l.Watched cfg ∧
      l.stream.queued.length < cfg.sendQueueHighWaterBytes + chunk) hrun
    (fun _ _ => ⟨fun _ => hhigh, Nat.lt_add_right chunk hhigh⟩)
    fun _ _ _ _ _ _ hheeds hdue hstep hl =>
      ⟨hstep.watched hl.1, hstep.queue_lt (heeds_of_due hheeds hdue) hl.1 hl.2⟩
  have hstanding := hkept.standing hsending.opened
  have hbytes : l.stream.queued.length = c.send.sendQueueBytes := by
    rw [hsending.queueBytes]
    exact congrArg (fun standing : Standing => standing.stream.queued.length) hstanding
  have hpaused : l.paused = c.send.sendSourcePaused := congrArg Standing.paused hstanding
  rw [hbytes] at hqueue
  refine ⟨hqueue, fun hfree => ?_, hsending.paused⟩
  rw [← hbytes]
  exact hwatched (hpaused.trans hfree)

instance (chunk : Nat) (c : Conn) : (label : Turn × Event) → Decidable (HeedsPause chunk c label)
  | (_, .sourceData data) =>
    inferInstanceAs (Decidable (c.send.sendSourcePaused = false ∧ data.length ≤ chunk))
  | (_, .segment _) | (_, .sourceEnd) | (_, .localClose) | (_, .endpointError) | (_, .sinkDrain) |
    (_, .sinkEnd) | (_, .retransmissionTimer _) | (_, .pacerTimer) | (_, .ackTimer) |
    (_, .idleTimer) | (_, .removalTimer) | (_, .rateRetry) | (_, .immediate) | (_, .staleResume) |
    (_, .transportFlush) | (_, .otherTraffic _) => inferInstanceAs (Decidable True)

/-- Before the handshake is over nothing leaves the queue. -/
theorem queue_bounded_before_handshake : ∃ c : Conn, c.send.sendQueueBytes = 5 ∧
    c.send.sendQueueBytes < ({} : Settings).sendQueueHighWaterBytes + 3 := by
  obtain ⟨c, hrun, hc⟩ := exists_restricted_run {} (HeedsPause 3) exampleReverse
    [({}, .sourceData [1, 2, 3]), ({}, .sourceData [4, 5])]
    (fun c => c.registered && c.state ≠ .closed && c.send.sendQueueBytes = 5) (by decide)
  simp only [Bool.and_eq_true, decide_eq_true_eq] at hc
  obtain ⟨⟨hreg, hstate⟩, hbytes⟩ := hc
  exact ⟨c, hbytes, (queue_bounded opened_exampleReverse hrun ⟨hreg, hstate⟩).1⟩

end Conn

end RootlessRelay
