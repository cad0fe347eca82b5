import RootlessRelay.Tcp.Sending

/-!
# The send loop

`Evolves` says what the functions that send without being told anything new may
do to a live connection: they keep `Sending`, follow the abstract stream, and
leave the receiving side alone. `Drained` adds what the send loop guarantees
when it returns: whatever it left unsent has a reason to be picked up again
(`Settled`), and a closed window stops it from sending at all.

The loop is proved iteration by iteration. `IterationSpec` is what one of them
achieves, and that the loop terminates is part of it: an iteration that goes on
has taken bytes off the queue, so the fuel lasts. Every exit of the loop is one
lemma about `Drained`.
-/

namespace RootlessRelay

open SequenceSpace Transition

namespace Conn

variable (cfg : Settings)

/-- What no sending function changes: the receiving side, the window, and what
identifies the connection. -/
structure Frame where
  direction : Direction
  tx : Tuple
  registered : Bool
  recv : ReceiveSide
  relayIsn : Seq
  vmWindow : Nat
  windowUpdate : Option (Seq × Seq)
  sendMss : Nat
  sourceEnded : Bool
  localClosed : Bool
  enqueued : Bytes
  acknowledged : List Item

/-- The part of a connection that sending leaves alone. -/
def frame (c : Conn) : Frame where
  direction := c.direction
  tx := c.tx
  registered := c.registered
  recv := c.recv
  relayIsn := c.send.relayIsn
  vmWindow := c.send.vmWindow
  windowUpdate := c.send.windowUpdate
  sendMss := c.send.sendMss
  sourceEnded := c.send.sourceEnded
  localClosed := c.send.localClosed
  enqueued := c.send.enqueued
  acknowledged := c.send.acknowledged

/-- The connection has sent and nothing else: the invariant is kept, the stream
has moved by its own actions, and the frame is the same. -/
structure Evolves (c c' : Conn) : Prop where
  sending : c'.Sending cfg
  moves : Reaches (Restrict (SendStream.Step itemFormat) SendStream.Proper) c.stream c'.stream
  frame : c'.frame = c.frame
  state : c'.state = c.state ∨ c.state ≠ .synSent ∧ c'.state = .finWait

variable {cfg} {turn : Turn} {c c' c'' : Conn}

namespace Evolves

theorem refl (h : c.Sending cfg) : Evolves cfg c c := ⟨h, .refl _, rfl, .inl rfl⟩

theorem trans (h : Evolves cfg c c') (h' : Evolves cfg c' c'') : Evolves cfg c c'' := by
  refine ⟨h'.sending, h.moves.trans h'.moves, h'.frame.trans h.frame, ?_⟩
  rcases h.state with hs | ⟨hs, hs'⟩
  · rw [← hs]
    exact h'.state
  · rcases h'.state with ht | ⟨-, ht⟩
    · exact .inr ⟨hs, ht.trans hs'⟩
    · exact .inr ⟨hs, ht⟩

/-- Nothing enters or leaves the stream, as when only timers and modes change. -/
theorem of_stream (h : c'.Sending cfg) (hstream : c'.stream = c.stream)
    (hframe : c'.frame = c.frame) (hstate : c'.state = c.state) : Evolves cfg c c' :=
  ⟨h, hstream ▸ .refl _, hframe, .inl hstate⟩

theorem withQueue (h : c.Sending cfg) {q : RetransmissionQueue}
    (hq : c.send.retransmission.SameStream q) : Evolves cfg c (c.withQueue q) :=
  of_stream (h.withQueue hq) (Sending.withQueue_stream hq.items) rfl rfl

theorem emit (h : c.Sending cfg) (wires : List WireSegment) : Evolves cfg c (c.emit wires) :=
  of_stream (h.emit wires) rfl rfl rfl

theorem registered (h : Evolves cfg c c') : c'.registered = c.registered :=
  congrArg Frame.registered h.frame

theorem recv (h : Evolves cfg c c') : c'.recv = c.recv := congrArg Frame.recv h.frame

theorem direction (h : Evolves cfg c c') : c'.direction = c.direction :=
  congrArg Frame.direction h.frame

theorem vmWindow (h : Evolves cfg c c') : c'.send.vmWindow = c.send.vmWindow :=
  congrArg Frame.vmWindow h.frame

theorem not_synSent (h : Evolves cfg c c') (hs : c.state ≠ .synSent) : c'.state ≠ .synSent := by
  rcases h.state with ht | ⟨-, ht⟩
  · rwa [ht]
  · rw [ht]
    nofun

end Evolves

/-- A loss changes congestion control and the pacer, and no part of the stream. -/
theorem onTCPCongestionLoss_evolves (h : c.Sending cfg) (reason : Reason) :
    Evolves cfg c (c.onTCPCongestionLoss cfg reason) := by
  unfold onTCPCongestionLoss
  dsimp only
  split
  · exact .refl h
  · refine .of_stream { h with recovery := ?_, pacer := ?_, cwnd := ?_ } rfl rfl rfl
    · intro _
      have hmss := tcpMss_pos cfg c
      change 1 ≤ if reason = .timeout then c.tcpMss cfg else
        max (2 * c.tcpMss cfg) (c.send.retransmission.payloadBytesInFlight / 2)
      split <;> omega
    · intro r hr
      obtain rfl : c.send.retransmission.sndNxt = r := Option.some.inj hr
      refine ⟨c.stream.history.length, ?_, Nat.le_refl _, ?_⟩
      · rw [h.tracked.next, h.acked, position_add]
        exact congrArg (position c.send.relayIsn) (List.length_append).symm
      · exact Nat.le_trans (by simp [SendStream.State.history, stream]) (Nat.le_add_right _ _)
    · exact Pacer.noteLoss_timerExact h.pacer

theorem onRetransmit_evolves (h : c.Sending cfg) (hreg : c.registered = true) (segment : Segment)
    (reason : Reason) : Evolves cfg c (c.onRetransmit cfg segment reason) := by
  unfold onRetransmit
  rw [if_neg (by simp [hreg])]
  dsimp only
  obtain ⟨wires, hwires⟩ := resend_eq cfg
    (if reason ≠ .windowOpen then c.onTCPCongestionLoss cfg reason else c) segment
  rw [hwires]
  split
  · have hloss := onTCPCongestionLoss_evolves h reason
    exact hloss.trans (.emit hloss.sending wires)
  · exact .emit h wires

theorem armed_evolves (h : c.Sending cfg) : Evolves cfg c c.armed :=
  .withQueue h (RetransmissionQueue.SameStream.armTimer (.of_segments rfl rfl rfl rfl rfl rfl))

theorem fastRetransmit_evolves (turn : Turn) (h : c.Sending cfg) (hreg : c.registered = true) :
    Evolves cfg c (c.fastRetransmit cfg turn) := by
  obtain he | ⟨segment, -, -, -, he⟩ := fastRetransmit_cases cfg turn c
  · rw [he]
    exact .refl h
  · rw [he]
    have hcleared := Evolves.withQueue h (q := { c.send.retransmission with
      currentRtoMs := c.send.retransmission.initialRtoMs }.clearTimer)
      (.of_segments rfl rfl rfl rfl rfl rfl)
    have hsent := onRetransmit_evolves hcleared.sending hreg segment .fast
    exact (hcleared.trans hsent).trans (armed_evolves hsent.sending)

theorem setPersist_evolves (turn : Turn) (h : c.Sending cfg) (hreg : c.registered = true)
    (enabled : Bool) :
    Evolves cfg c (c.setPersist cfg turn enabled) := by
  have hswitched := Evolves.withQueue h
    (RetransmissionQueue.switchPersist_sameStream c.send.retransmission enabled)
  obtain ⟨-, he⟩ | ⟨-, -, -, he⟩ | ⟨segment, -, -, -, -, he⟩ := setPersist_cases cfg turn c enabled
  · rw [he]
    exact .refl h
  · rw [he]
    exact hswitched.trans (armed_evolves hswitched.sending)
  · rw [he]
    have hsent := onRetransmit_evolves hswitched.sending hreg segment .windowOpen
    exact (hswitched.trans hsent).trans (armed_evolves hsent.sending)

/-- An item below the recovery point is outstanding, so recovery ends with what
it is about. -/
theorem Sending.outstanding_of_recovering (h : c.Sending cfg) (hrec : c.recoveryActive = true) :
    c.send.retransmission.segments ≠ [] := by
  rw [h.tracked.hasOutstanding_iff]
  intro hnil
  unfold recoveryActive at hrec
  cases hr : c.send.congestionRecoveryUntil with
  | none => simp [hr] at hrec
  | some r =>
      obtain ⟨place, hplace, hle, hctl⟩ := h.recovery r hr
      have hlen : c.stream.history.length = c.stream.acknowledged.length := by
        simp [SendStream.State.history, stream, hnil]
      have hcontrols := h.controls_le
      rw [SendStream.State.history, controls_append] at hcontrols
      simp only [hr, h.acked, seqLessThan_eq_precedes, hplace] at hrec
      -- With nothing outstanding the recovery point is behind, and only by control items.
      rcases Nat.lt_or_eq_of_le (hlen ▸ hle) with hlt | heq
      · have := (precedes_position (w := 32) (by omega) c.send.relayIsn
          (i := place) (j := c.stream.acknowledged.length) (by omega) (by omega)).mpr hlt
        simp [this] at hrec
      · simp [heq] at hrec

theorem isTCPCongestionRecoveryActive_snd (c : Conn) :
    c.isTCPCongestionRecoveryActive.2 = c.recoveryActive := by
  unfold isTCPCongestionRecoveryActive
  split <;> simp_all

theorem isTCPCongestionRecoveryActive_evolves (h : c.Sending cfg) :
    Evolves cfg c c.isTCPCongestionRecoveryActive.1 := by
  unfold isTCPCongestionRecoveryActive
  split
  · exact .refl h
  · exact .of_stream { h with recovery := nofun } rfl rfl rfl

/-- Only the recovery point can differ after the test. -/
theorem isTCPCongestionRecoveryActive_eq (c : Conn) :
    ∃ recoveryUntil, c.isTCPCongestionRecoveryActive.1 =
      { c with send := { c.send with congestionRecoveryUntil := recoveryUntil } } := by
  unfold isTCPCongestionRecoveryActive
  split
  · exact ⟨_, rfl⟩
  · exact ⟨_, rfl⟩

/-- Something waits to be sent: bytes, or a FIN. -/
def NeedsWake (c : Conn) : Prop :=
  c.send.sendQueue ≠ [] ∨ c.send.pendingFin = true ∧ c.send.finSent = false

/-- Something will call the send loop again. The first two causes are the
retransmission timer's. -/
def HasCause (c : Conn) : Prop :=
  c.send.retransmission.segments ≠ [] ∨ c.send.retransmission.persist = true ∨
    c.send.pacer.blocked = true ∨ c.send.transportWaiting = true ∨ 0 < c.send.immediates ∨
    0 < c.send.rateRetries

/-- The loop has returned, and whatever waits has a cause to be sent later. -/
structure Settled (c : Conn) : Prop where
  sending : c.send.sending = false
  wakes : c.NeedsWake → c.HasCause

/-- `drainTCPToVM` has switched persist mode on if it is wanted. -/
def PersistReady (c : Conn) : Prop :=
  c.wantsPersist = true → c.send.retransmission.persist = true

/-- What the send loop guarantees when it returns, compared with the connection
it started from. -/
structure Drained (cfg : Settings) (c c' : Conn) : Prop where
  evolves : Evolves cfg c c'
  settled : c'.Settled
  quiet : c.send.vmWindow = 0 → c'.sent = c.sent
  timer : c.send.retransmission.TimerExact → c'.send.retransmission.TimerExact

theorem Drained.after (hev : Evolves cfg c c')
    (hquiet : c.send.vmWindow = 0 → c'.sent = c.sent)
    (htimer : c.send.retransmission.TimerExact → c'.send.retransmission.TimerExact)
    (h : Drained cfg c' c'') : Drained cfg c c'' :=
  ⟨hev.trans h.evolves, h.settled,
    fun hw => (h.quiet (hev.vmWindow.trans hw)).trans (hquiet hw), fun ht => h.timer (htimer ht)⟩

/-- Leaving the loop without touching stream, queue or what was sent. -/
theorem Drained.stop (hev : Evolves cfg c c') (hsettled : c'.Settled) (hsent : c'.sent = c.sent)
    (hqueue : c'.send.retransmission = c.send.retransmission) : Drained cfg c c' :=
  ⟨hev, hsettled, fun _ => hsent, fun ht => hqueue ▸ ht⟩

theorem maybeFin_eq (c : Conn) : c.maybeFin cfg = c.maybeSendFin cfg := by
  unfold maybeFin maybeSendTCPFin maybeSendReverseFin
  split <;> rfl

/-- The FIN goes out, or there is a reason to come back for it. -/
theorem maybeFin_spec (h : c.Sending cfg) (hreg : c.registered = true)
    (hstate : c.state ≠ .synSent) (hstopped : c.send.sending = false)
    (hready : c.PersistReady)
    (hunsent : c.send.sendQueue = [] ∨ c.send.retransmission.segments ≠ []) :
    ∃ c', c.maybeFin cfg = .ok c' ∧ Drained cfg c c' := by
  rw [maybeFin_eq]
  unfold maybeSendFin
  split
  · rename_i hno
    refine ⟨c, rfl, .stop (.refl h) ⟨hstopped, fun hneeds => ?_⟩ rfl rfl⟩
    by_cases hseg : c.send.retransmission.segments = []
    · have hqueue := hunsent.resolve_right (not_not_intro hseg)
      have hfin : c.send.pendingFin = true ∧ c.send.finSent = false :=
        hneeds.resolve_left (not_not_intro hqueue)
      have hfly : c.send.retransmission.payloadBytesInFlight = 0 := by
        rw [h.tracked.inFlight]
        simp [RetransmissionQueue.items, hseg]
      simp only [hfin.1, hfin.2, hqueue, hfly, Bool.not_true, List.length_nil, Nat.lt_irrefl,
        decide_false, Bool.or_false, ge_iff_le, Nat.le_zero, Bool.false_or,
        decide_eq_true_eq] at hno
      exact .inr (.inl (hready (by simp [wantsPersist, hno, hfin.1])))
    · exact .inl hseg
  · rename_i hyes
    simp only [Bool.or_eq_true, Bool.not_eq_true', not_or, Bool.not_eq_false, Bool.not_eq_true,
      decide_eq_true_eq, Nat.not_lt, Nat.le_zero, List.length_eq_zero_iff, ge_iff_le,
      Nat.not_le] at hyes
    obtain ⟨⟨⟨hpending, hfinSent⟩, hqueue⟩, hwindow⟩ := hyes
    have hev := isTCPCongestionRecoveryActive_evolves h
    obtain ⟨r, heq⟩ := isTCPCongestionRecoveryActive_eq c
    have hactive := isTCPCongestionRecoveryActive_snd c
    generalize c.isTCPCongestionRecoveryActive = result at hev heq hactive
    obtain ⟨c₁, active⟩ := result
    dsimp only at hev heq hactive ⊢
    by_cases hrec : c.recoveryActive = true
    · rw [if_pos (by simp [hactive, hrec])]
      refine ⟨c₁, rfl, .stop hev ⟨by rw [heq]; exact hstopped, fun _ => ?_⟩ (by rw [heq])
        (by rw [heq])⟩
      have := h.outstanding_of_recovering hrec
      rw [heq]
      exact .inl this
    · rw [if_neg (by simp [hactive, hrec, heq, hreg])]
      have hqueue₁ : c₁.send.retransmission = c.send.retransmission := by rw [heq]
      have hnone : Item.fin ∉ c₁.stream.outstanding := by
        intro hmem
        have := h.finTracked.mp (List.mem_append_right _ (by rw [heq] at hmem; exact hmem))
        rw [hfinSent] at this
        cases this
      obtain ⟨hok, hsending, hstep⟩ := hev.sending.sendFin (hev.not_synSent hstate)
        (by rw [heq]; exact hpending) (by rw [heq]; exact hqueue) hnone
      refine ⟨_, hok, ⟨hev.trans ⟨hsending, ⟨_, .single ⟨?_, hstep⟩⟩, rfl, .inr
        ⟨hev.not_synSent hstate, rfl⟩⟩, ⟨?_, ?_⟩, ?_, ?_⟩⟩
      · change c₁.send.finSent = false
        rw [heq]
        exact hfinSent
      · change c₁.send.sending = false
        rw [heq]
        exact hstopped
      · rintro (hq | ⟨-, hfin⟩)
        · refine absurd ?_ hq
          change c₁.send.sendQueue = []
          rw [heq]
          exact hqueue
        · cases hfin
      · intro hw
        rw [hw] at hwindow
        cases hwindow
      · intro ht
        exact RetransmissionQueue.TimerExact.tracked (hqueue₁ ▸ ht) hev.sending.opened
          hev.sending.live hev.sending.next (List.cons_ne_nil _ _)

/-- The connection after the first `count` queued bytes have left in one
segment. -/
def takeBytes (cfg : Settings) (c : Conn) (left : List Bytes) (count : Nat) (flags : Flags) :
    Conn :=
  ((c.withSendQueue left).transmit cfg (c.send.sendQueue.flatten.take count)
    flags).consumeTCPQueuedData cfg count

/-- `sendQueued` takes what it is asked for, and throws nothing. -/
theorem sendQueued_eq (h : c.Sending cfg) {toSend : Nat} (hpos : 0 < toSend)
    (hmss : toSend ≤ c.tcpMss cfg) (hle : toSend ≤ c.send.sendQueueBytes) :
    ∃ left, left.flatten = c.send.sendQueue.flatten.drop toSend ∧ [] ∉ left ∧
      itemsOf (c.send.sendQueue.flatten.take toSend) { ack := true, psh := true } ≠ [] ∧
      c.sendQueued cfg toSend =
        .ok (c.takeBytes cfg left toSend { ack := true, psh := true }) := by
  obtain ⟨left, htake, hflat, hne⟩ :=
    takeQueuedBytes_spec hpos (hmss.trans (tcpMss_safe cfg c)) (hmss.trans (tcpMss_safe cfg c))
      (h.queueBytes ▸ hle) h.chunks
  have hlen : (c.send.sendQueue.flatten.take toSend).length = toSend :=
    List.length_take_of_le (h.queueBytes ▸ hle)
  have hitems : itemsOf (c.send.sendQueue.flatten.take toSend) { ack := true, psh := true } ≠ [] := by
    intro hnil
    have hzero := congrArg List.length hnil
    simp only [itemsOf_length, sequenceLength, hlen, List.length_nil] at hzero
    omega
  have hsend := sendTrackedTCP_eq (c := c.withSendQueue left) cfg h.opened h.live h.next
    (by rw [hlen]; exact hmss) hitems rfl
  refine ⟨left, hflat, hne, hitems, ?_⟩
  unfold sendQueued
  rw [htake]
  dsimp only
  rw [hsend]
  rfl

/-- Bytes within the window leave the queue in one tracked segment, and the
invariant is kept. -/
theorem sendQueued_spec (h : c.Sending cfg) (hstate : c.state ≠ .synSent) {toSend : Nat}
    (hpos : 0 < toSend) (hmss : toSend ≤ c.tcpMss cfg) (hle : toSend ≤ c.send.sendQueueBytes)
    (hfly : c.send.retransmission.payloadBytesInFlight + toSend ≤ c.send.vmWindow) :
    ∃ c', c.sendQueued cfg toSend = .ok c' ∧ Evolves cfg c c' ∧
      c'.send.sendQueueBytes = c.send.sendQueueBytes - toSend ∧
      c'.send.sending = c.send.sending ∧ c'.send.pacer = c.send.pacer ∧
      c'.send.retransmission.segments ≠ [] ∧
      (c.send.retransmission.TimerExact → c'.send.retransmission.TimerExact) := by
  obtain ⟨left, hflat, hne, hitems, hok⟩ := sendQueued_eq h hpos hmss hle
  obtain ⟨hsending, hstep⟩ := h.sendBytes { ack := true, psh := true } hpos hle hstate
    (Nat.le_trans hfly (h.window (.inr hstate))) hflat hne rfl rfl
  have hproper : SendStream.Proper c.stream (.transmit toSend) := trivial
  exact ⟨_, hok, ⟨hsending, ⟨_, .single ⟨hproper, hstep⟩⟩, rfl, .inl rfl⟩, rfl, rfl, rfl,
    RetransmissionQueue.tracked_segments_ne_nil,
    fun ht => RetransmissionQueue.TimerExact.tracked ht h.opened h.live h.next hitems⟩

theorem tryConsume_eq (turn : Turn) (c : Conn) (rateLimited : Bool) (bytes : Nat) :
    ∃ rateLimiter, (c.tryConsume turn rateLimited bytes).1 = { c with rateLimiter } := by
  unfold tryConsume
  split
  · exact ⟨_, rfl⟩
  · exact ⟨c.rateLimiter, rfl⟩

theorem Sending.sendQueueBytes_pos (h : c.Sending cfg) (hqueue : c.send.sendQueue ≠ []) :
    0 < c.send.sendQueueBytes := by
  rw [h.queueBytes]
  exact List.length_pos_iff.mpr fun hnil => hqueue (eq_nil_of_flatten_eq_nil h.chunks hnil)

/-- What the loop may still send: nothing while recovery is active. -/
def available (cfg : Settings) (c : Conn) : Nat :=
  if c.recoveryActive then 0 else c.tcpSendLimit cfg - c.send.retransmission.payloadBytesInFlight

/-- With nothing available, an outstanding segment or persist mode wakes the
loop. This is why a stopped loop is not forgotten. -/
theorem Sending.hasCause_of_idle (h : c.Sending cfg) (hready : c.PersistReady)
    (hqueue : c.send.sendQueue ≠ []) (hidle : c.available cfg = 0) : c.HasCause := by
  by_cases hrec : c.recoveryActive = true
  · exact .inl (h.outstanding_of_recovering hrec)
  by_cases hseg : c.send.retransmission.segments = []
  · have hfly : c.send.retransmission.payloadBytesInFlight = 0 := by
      rw [h.tracked.inFlight]
      simp [RetransmissionQueue.items, hseg]
    have hbytes := h.sendQueueBytes_pos hqueue
    have hwindow : c.send.vmWindow = 0 := by
      have := cfg.cwnd_clamped
      rw [available, if_neg hrec, hfly, tcpSendLimit] at hidle
      split at hidle <;> omega
    exact .inr (.inl (hready (by simp [wantsPersist, hwindow, hbytes])))
  · exact .inl hseg

theorem available_add_inFlight_le (cfg : Settings) (c : Conn) (hpos : 0 < c.available cfg) :
    c.available cfg + c.send.retransmission.payloadBytesInFlight ≤ c.send.vmWindow := by
  unfold available at hpos ⊢
  split at hpos
  · cases hpos
  · rename_i hrec
    rw [if_neg hrec]
    unfold tcpSendLimit at hpos ⊢
    omega

/-- The rest of one iteration once the limiter has admitted `toSend` bytes: a
tracked segment, then the pacer. -/
theorem sendPaced_spec (turn : Turn) (h : c.Sending cfg) (hstate : c.state ≠ .synSent)
    {toSend : Nat} (hpos : 0 < toSend) (hmss : toSend ≤ c.tcpMss cfg)
    (hle : toSend ≤ c.send.sendQueueBytes)
    (hfly : c.send.retransmission.payloadBytesInFlight + toSend ≤ c.send.vmWindow) :
    ∃ c' c'' blocked, c.sendQueued cfg toSend = .ok c' ∧
      c'.notePacedTCPSegment turn = (c'', blocked) ∧ Evolves cfg c c'' ∧
      c''.send.sendQueueBytes < c.send.sendQueueBytes ∧
      c''.send.retransmission.segments ≠ [] ∧
      (blocked = true → c''.send.sending = false) ∧
      (c.send.retransmission.TimerExact → c''.send.retransmission.TimerExact) := by
  obtain ⟨c', hsend, hev, hleft, -, -, hseg, htimer⟩ :=
    sendQueued_spec h hstate hpos hmss hle hfly
  refine ⟨c', (c'.notePacedTCPSegment turn).1, (c'.notePacedTCPSegment turn).2, hsend, rfl,
    hev.trans ?_, ?_, hseg, ?_, htimer⟩
  · exact .of_stream { hev.sending with
      pacer := Pacer.noteSegment_timerExact hev.sending.pacer _ } rfl rfl rfl
  · change c'.send.sendQueueBytes < _
    omega
  · intro hblocked
    change (c'.send.sending && !(c'.notePacedTCPSegment turn).2) = false
    rw [hblocked, Bool.not_true, Bool.and_false]

/-- What one iteration achieves: the loop ends drained, or bytes have left the
queue and it can go on. -/
def IterationSpec (cfg : Settings) (c : Conn) : Conn × Bool → Prop
  | (c', false) => Drained cfg c c'
  | (c', true) => Evolves cfg c c' ∧ c.send.vmWindow ≠ 0 ∧
    c'.send.sendQueueBytes < c.send.sendQueueBytes ∧
    (c.send.retransmission.TimerExact → c'.send.retransmission.TimerExact)

/-- An iteration from the limiter on: it sends a segment and goes on or not, or
it is refused. It does not throw. -/
theorem sendStep_spec (turn : Turn) (rateLimited : Bool) (cooperativeSegments available : Nat)
    (h : c.Sending cfg) (hreg : c.registered = true) (hstate : c.state ≠ .synSent)
    {toSend : Nat} (hpos : 0 < toSend) (hmss : toSend ≤ c.tcpMss cfg)
    (hle : toSend ≤ c.send.sendQueueBytes)
    (hfly : c.send.retransmission.payloadBytesInFlight + toSend ≤ c.send.vmWindow) :
    ∃ result, c.sendStep cfg turn rateLimited cooperativeSegments available toSend = .ok result ∧
      IterationSpec cfg c result := by
  have hwindow : c.send.vmWindow ≠ 0 := by omega
  unfold sendStep
  obtain ⟨rateLimiter, hlimiter⟩ := tryConsume_eq turn c rateLimited toSend
  have hev : Evolves cfg c { c with rateLimiter } := .of_stream { h with } rfl rfl rfl
  generalize c.tryConsume turn rateLimited toSend = result at hlimiter
  obtain ⟨c₁, admitted⟩ := result
  obtain rfl : c₁ = _ := hlimiter
  cases admitted with
  | false =>
      refine ⟨_, rfl, .stop (.of_stream { h with } rfl rfl rfl) ⟨rfl, fun _ => ?_⟩ rfl rfl⟩
      exact .inr (.inr (.inr (.inr (.inr (Nat.succ_pos _)))))
  | true =>
      obtain ⟨c₂, c₃, blocked, hsend, hpaced, hev₃, hless, hseg, hblocked, htimer⟩ :=
        sendPaced_spec turn hev.sending hstate hpos hmss hle hfly
      have hev' := hev.trans hev₃
      have hcause : c₃.HasCause := .inl hseg
      have hquiet : ∀ c' : Conn, c.send.vmWindow = 0 → c'.sent = c.sent :=
        fun _ hw => absurd hw hwindow
      simp only [hsend, hpaced, Bool.not_true, Bool.false_eq_true, if_false]
      split
      · rename_i hb
        exact ⟨_, rfl, hev', ⟨hblocked hb, fun _ => hcause⟩, hquiet _, htimer⟩
      split
      · have hstop : Evolves cfg c₃ c₃.stopSending := .of_stream { hev₃.sending with } rfl rfl rfl
        have hready : c₃.stopSending.PersistReady := by
          intro hw
          simp only [wantsPersist, Bool.and_eq_true, decide_eq_true_eq] at hw
          exact absurd (hev'.vmWindow ▸ hw.1) hwindow
        obtain ⟨c', hok, hd⟩ := maybeFin_spec hstop.sending (hev'.registered.trans hreg)
          (hev'.not_synSent hstate) rfl hready (.inr hseg)
        exact ⟨(c', false), by rw [hok]; rfl, .after (hev'.trans hstop) (hquiet _) htimer hd⟩
      split
      · exact ⟨_, rfl, hev'.trans (.of_stream { hev₃.sending with } rfl rfl rfl),
          ⟨rfl, fun _ => .inl hseg⟩, hquiet _, htimer⟩
      · exact ⟨_, rfl, hev', hwindow, hless, htimer⟩

/-- One iteration of the send loop on a consistent connection. It ends the loop
with a cause to wake up, or sends and goes on. -/
theorem drainStep_spec (turn : Turn) (rateLimited : Bool) (cooperativeSegments : Nat)
    (h : c.Sending cfg) (hreg : c.registered = true) (hstate : c.state ≠ .synSent)
    (hready : c.PersistReady) :
    ∃ result, c.drainStep cfg turn rateLimited cooperativeSegments = .ok result ∧
      IterationSpec cfg c result := by
  unfold drainStep
  rw [if_neg (by simp [hreg])]
  by_cases hqueue : c.send.sendQueue = []
  · rw [if_pos hqueue]
    have hstop : Evolves cfg c c.stopSending := .of_stream { h with } rfl rfl rfl
    obtain ⟨c', hok, hd⟩ := maybeFin_spec hstop.sending hreg hstate rfl hready (.inl hqueue)
    exact ⟨(c', false), by rw [hok]; rfl, .after hstop (fun _ => rfl) id hd⟩
  rw [if_neg hqueue]
  by_cases hws : turn.bufferedAmount c.sent.length > 32768
  · rw [if_pos hws]
    exact ⟨_, rfl, .stop (.of_stream { h with } rfl rfl rfl)
      ⟨rfl, fun _ => .inr (.inr (.inr (.inl rfl)))⟩ rfl rfl⟩
  rw [if_neg hws]
  have hev := isTCPCongestionRecoveryActive_evolves h
  obtain ⟨r, heq⟩ := isTCPCongestionRecoveryActive_eq c
  have hactive := isTCPCongestionRecoveryActive_snd c
  generalize c.isTCPCongestionRecoveryActive = result at hev heq hactive
  obtain ⟨c₁, recovering⟩ := result
  dsimp only at hev heq hactive ⊢
  rw [hactive]
  change ∃ result, (if min (c₁.tcpMss cfg) (min c₁.send.sendQueueBytes (c.available cfg)) = 0
    then _ else c₁.sendStep cfg turn rateLimited cooperativeSegments (c.available cfg)
      (min (c₁.tcpMss cfg) (min c₁.send.sendQueueBytes (c.available cfg)))) = _ ∧ _
  have hbytes : c₁.send.sendQueueBytes = c.send.sendQueueBytes := by rw [heq]
  have hfly : c₁.send.retransmission = c.send.retransmission := by rw [heq]
  split
  · rename_i hzero
    have hidle : c.available cfg = 0 := by
      have := tcpMss_pos cfg c₁
      have := h.sendQueueBytes_pos hqueue
      omega
    have hcause := h.hasCause_of_idle hready hqueue hidle
    refine ⟨_, rfl, .stop (hev.trans (.of_stream { hev.sending with } rfl rfl rfl))
      ⟨rfl, fun _ => ?_⟩ (by rw [heq]; rfl) hfly⟩
    rw [heq]
    exact hcause
  · rename_i hzero
    have hroom := available_add_inFlight_le cfg c (by omega)
    obtain ⟨result, hok, hspec⟩ := sendStep_spec turn rateLimited cooperativeSegments
      (c.available cfg) hev.sending (hev.registered.trans hreg) (hev.not_synSent hstate)
      (Nat.pos_of_ne_zero hzero) (Nat.min_le_left _ _)
      (Nat.le_trans (Nat.min_le_right _ _) (Nat.min_le_left _ _))
      (by rw [hfly, hev.vmWindow]; omega)
    refine ⟨result, hok, ?_⟩
    obtain ⟨c', goesOn⟩ := result
    cases goesOn with
    | false => exact .after hev (fun _ => by rw [heq]) (fun ht => hfly ▸ ht) hspec
    | true =>
        obtain ⟨hev', hwindow, hless, htimer⟩ := hspec
        exact ⟨hev.trans hev', fun hw => hwindow (hev.vmWindow.trans hw), hbytes ▸ hless,
          fun ht => htimer (hfly ▸ ht)⟩

/-- The loop ends, and ends drained. The induction is on the fuel, which always
exceeds the bytes that are left. -/
theorem drainLoop_spec (turn : Turn) (rateLimited : Bool) {fuel : Nat} (cooperativeSegments : Nat)
    (h : c.Sending cfg) (hreg : c.registered = true) (hstate : c.state ≠ .synSent)
    (hready : c.PersistReady) (hfuel : c.send.sendQueueBytes < fuel) :
    ∃ c', drainLoop cfg turn rateLimited fuel cooperativeSegments c = .ok c' ∧
      Drained cfg c c' := by
  induction fuel generalizing c cooperativeSegments with
  | zero => cases hfuel
  | succ fuel ih =>
      obtain ⟨⟨c', goesOn⟩, hstep, hspec⟩ :=
        drainStep_spec turn rateLimited cooperativeSegments h hreg hstate hready
      unfold drainLoop
      rw [hstep]
      cases goesOn with
      | false => exact ⟨c', rfl, hspec⟩
      | true =>
          obtain ⟨hev, hwindow, hless, htimer⟩ := hspec
          have hready' : c'.PersistReady := by
            intro hw
            simp only [wantsPersist, Bool.and_eq_true, decide_eq_true_eq] at hw
            exact absurd (hev.vmWindow ▸ hw.1) hwindow
          obtain ⟨c'', hok, hd⟩ := ih (cooperativeSegments + 1) hev.sending
            (hev.registered.trans hreg) (hev.not_synSent hstate) hready' (by omega)
          exact ⟨c'', hok, .after hev (fun hw => absurd hw hwindow) htimer hd⟩

theorem onRetransmit_windowOpen (cfg : Settings) (hreg : c.registered = true) (segment : Segment) :
    ∃ wires, c.onRetransmit cfg segment .windowOpen = c.emit wires := by
  unfold onRetransmit
  rw [if_neg (by simp [hreg])]
  exact resend_eq cfg c segment

theorem setPersist_same (cfg : Settings) (turn : Turn) {enabled : Bool}
    (h : c.send.retransmission.persist = enabled) : c.setPersist cfg turn enabled = c := by
  unfold setPersist RetransmissionQueue.setPersist
  rw [if_pos (by simp [h])]
  rfl

/-- Switching persist mode as `drainTCPToVM` does. A window that is closed makes
it send nothing. -/
theorem setPersist_wanted (turn : Turn) (h : c.Sending cfg) (hreg : c.registered = true) :
    (c.setPersist cfg turn c.wantsPersist).PersistReady ∧
      (c.send.vmWindow = 0 → (c.setPersist cfg turn c.wantsPersist).sent = c.sent) := by
  obtain ⟨hsame, he⟩ | ⟨-, -, -, he⟩ | ⟨segment, hoff, hold, -, -, he⟩ :=
    setPersist_cases cfg turn c c.wantsPersist
  · rw [he]
    refine ⟨fun hw => ?_, fun _ => rfl⟩
    rcases hsame with hclosed | hexhausted | hpersist
    · rw [h.opened] at hclosed
      cases hclosed
    · rw [h.live] at hexhausted
      cases hexhausted
    · exact hpersist.trans hw
  · rw [he]
    refine ⟨fun hw => ?_, fun _ => rfl⟩
    simp only [wantsPersist, armed, RetransmissionQueue.hasOutstanding, withQueue_retransmission,
      RetransmissionQueue.armTimer_segments] at hw
    simp only [armed, withQueue_retransmission, RetransmissionQueue.armTimer_persist]
    exact hw
  · obtain ⟨wires, hwires⟩ := onRetransmit_windowOpen cfg (c := c.withQueue
      (c.send.retransmission.switchPersist c.wantsPersist)) hreg segment
    have hopen : c.send.vmWindow ≠ 0 := by
      intro hw
      have hseg : c.send.retransmission.hasOutstanding = true := by
        cases hs : c.send.retransmission.segments with
        | nil => simp [RetransmissionQueue.oldest, hs] at hold
        | cons => simp [RetransmissionQueue.hasOutstanding, hs]
      simp [wantsPersist, hw, hseg] at hoff
    rw [he, hwires]
    refine ⟨fun hw => ?_, fun hw => absurd hw hopen⟩
    rw [wantsPersist, Bool.and_eq_true] at hw
    exact absurd (of_decide_eq_true hw.1) hopen

theorem setPersist_timerExact (turn : Turn) (h : c.send.retransmission.TimerExact)
    (enabled : Bool) : (c.setPersist cfg turn enabled).send.retransmission.TimerExact :=
  RetransmissionQueue.setPersist_timerExact (lawfulCallbacks cfg turn) h c enabled

/-- `drainTCPToVM` after it has set `sending`: the loop returns, and has
drained. -/
theorem drain_spec (turn : Turn) (h : c.Sending cfg) (hreg : c.registered = true)
    (hstate : c.state ≠ .synSent) (rateLimited : Bool) :
    ∃ c', drainLoop cfg turn rateLimited
        ((c.setPersist cfg turn c.wantsPersist).send.sendQueueBytes + 1) 0
        (c.setPersist cfg turn c.wantsPersist) = .ok c' ∧ Drained cfg c c' := by
  have hev := setPersist_evolves turn h hreg c.wantsPersist
  obtain ⟨hready, hquiet⟩ := setPersist_wanted turn h hreg
  obtain ⟨c', hok, hd⟩ := drainLoop_spec turn rateLimited 0 hev.sending
    (hev.registered.trans hreg) (hev.not_synSent hstate) hready (Nat.lt_succ_self _)
  exact ⟨c', hok, .after hev hquiet (fun ht => setPersist_timerExact turn ht _) hd⟩

theorem drainTCPToVM_spec (turn : Turn) (h : c.Sending cfg) (hreg : c.registered = true)
    (hstate : c.state ≠ .synSent) (rateLimited : Bool) :
    ∃ c', c.drainTCPToVM cfg turn rateLimited = .ok c' ∧ Drained cfg c c' := by
  have hstart : Evolves cfg c { c with send := { c.send with sending := true } } :=
    .of_stream { h with } rfl rfl rfl
  obtain ⟨c', hok, hd⟩ := drain_spec turn hstart.sending hreg hstate rateLimited
  exact ⟨c', hok, .after hstart (fun _ => rfl) id hd⟩

/-- Whenever the loop is called between events, the connection ends up settled. -/
theorem trySend_spec (turn : Turn) (h : c.Sending cfg) (hreg : c.registered = true)
    (hstopped : c.send.sending = false)
    (hawait : c.state = .synSent → c.send.retransmission.segments ≠ []) :
    ∃ c', c.trySend cfg turn = .ok c' ∧ Drained cfg c c' := by
  have hreturn : (c.send.pacer.blocked = true ∨ c.state = .synSent) → Drained cfg c c := by
    intro hidle
    refine .stop (.refl h) ⟨hstopped, fun _ => ?_⟩ rfl rfl
    rcases hidle with hblocked | hs
    · exact .inr (.inr (.inl hblocked))
    · exact .inl (hawait hs)
  unfold trySend trySendToVM trySendReverseToVM
  by_cases hblocked : c.send.pacer.blocked = true
  · simp only [hreg, hstopped, hblocked, Bool.not_true, Bool.or_true, Bool.true_or, if_true]
    cases c.direction <;> exact ⟨c, rfl, hreturn (.inl hblocked)⟩
  by_cases hs : c.state = .synSent
  · simp only [hs, ConnState.isOpen, Bool.not_false, Bool.or_true, decide_true, if_true]
    cases c.direction <;> exact ⟨c, rfl, hreturn (.inr hs)⟩
  have hopen : c.state.isOpen = true := by
    have := h.notClosed
    cases hst : c.state <;> simp_all [ConnState.isOpen]
  simp only [hreg, hstopped, hblocked, hs, hopen, Bool.not_true, Bool.or_false, decide_false,
    Bool.false_eq_true, if_false]
  cases c.direction
  · exact drainTCPToVM_spec turn h hreg hs true
  · exact drainTCPToVM_spec turn h hreg hs false

end Conn

end RootlessRelay
