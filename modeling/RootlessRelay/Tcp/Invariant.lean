import RootlessRelay.Tcp.Receive

/-!
# The invariant of a connection

Between events a registered connection is either `Live`, with everything the
send loop guarantees, or `Finished`: an outbound connection that has been closed
and waits for its map entry to be removed. Handling a segment keeps this; the
case analysis `Received` says which way a handler can take and is what the other
results about segments rest on.

Between two functions of one callback less is known (`Ready`): the sending side
is sound and the loop is not running, but something may wait that nothing will
wake. The send loop makes a ready connection live again, and every callback that
leaves something to send ends with it.
-/

namespace RootlessRelay

open SequenceSpace Transition SendStream

namespace Conn

variable (cfg : Settings) (turn : Turn)

/-- What neither an acknowledgement nor the send loop changes. -/
structure Context where
  direction : Direction
  tx : Tuple
  registered : Bool
  recv : ReceiveCore
  relayIsn : Seq
  sourceEnded : Bool
  localClosed : Bool
  enqueued : Bytes

/-- The part of a connection that both leave alone. -/
def context (c : Conn) : Context where
  direction := c.direction
  tx := c.tx
  registered := c.registered
  recv := c.recv.core
  relayIsn := c.send.relayIsn
  sourceEnded := c.send.sourceEnded
  localClosed := c.send.localClosed
  enqueued := c.send.enqueued

/-- The moves of the outgoing stream between two states of a connection. -/
def Moves (allowed : State Item Byte → Action Byte → Prop) (c c' : Conn) : Prop :=
  Reaches (Restrict (SendStream.Step itemFormat) allowed) c.stream c'.stream

/-- A live connection between two of its functions: sound, and outside of the
send loop. -/
structure Ready (c : Conn) : Prop where
  registered : c.registered = true
  sending : c.Sending cfg
  timer : c.send.retransmission.TimerExact
  stopped : c.send.sending = false
  outbound : c.direction = .outbound →
    c.send.localClosed = false ∧ c.stream.FinLast itemFormat

/-- A live connection between two events: whatever waits to be sent has a cause
to be sent. -/
structure Live (c : Conn) : Prop extends Ready cfg c where
  wakes : c.NeedsWake → c.HasCause
  awaiting : c.state = .synSent → c.send.retransmission.segments ≠ []

/-- An outbound connection that is closed but still registered, until its timer
removes it. -/
structure Finished (c : Conn) : Prop where
  registered : c.registered = true
  direction : c.direction = .outbound
  state : c.state = .closed
  closed : c.send.retransmission.closed = true
  drained : c.send.retransmission.sndNxt = c.send.retransmission.sndUna
  segments : c.send.retransmission.segments = []
  idle : c.send.retransmission.payloadBytesInFlight = 0
  cwnd : 1 ≤ cfg.tcpWindowSize → 1 ≤ c.send.congestionWindow
  empty : c.send.sendQueue = []
  noFin : c.send.pendingFin = false
  stopped : c.send.sending = false
  sourceEnded : c.send.sourceEnded = true

variable {cfg turn} {c c' c'' : Conn}

theorem Evolves.context (h : Evolves cfg c c') : c'.context = c.context := by
  have hf := h.frame
  simp only [Conn.frame, Frame.mk.injEq] at hf
  simp only [Conn.context, hf]

theorem Passive.context (h : Passive c c') (hcore : c'.recv.core = c.recv.core) :
    c'.context = c.context := by
  simp only [Conn.context, h.direction, h.tx, h.registered, h.send, hcore]

namespace Ready

/-- `Ready` moves along proper steps of the stream, as long as the context
stays. -/
theorem of_moves (h : Ready cfg c) (hsending : c'.Sending cfg)
    (hmoves : Moves Proper c c') (hcontext : c'.context = c.context)
    (htimer : c'.send.retransmission.TimerExact) (hstopped : c'.send.sending = false) :
    Ready cfg c' where
  registered := (congrArg Context.registered hcontext).trans h.registered
  sending := hsending
  timer := htimer
  stopped := hstopped
  outbound hdir := by
    obtain ⟨hlocal, hlast⟩ := h.outbound ((congrArg Context.direction hcontext).symm.trans hdir)
    exact ⟨(congrArg Context.localClosed hcontext).trans hlocal, finLast_of_reaches hmoves hlast⟩

/-- Taking payload does not disturb the sending side. -/
theorem passive (h : Ready cfg c) (hp : Passive c c') : Ready cfg c' where
  registered := hp.registered.trans h.registered
  sending := by
    have hs := h.sending
    obtain ⟨direction, tx, state, registered, recv, send⟩ := c
    obtain ⟨direction', tx', state', registered', recv', send'⟩ := c'
    obtain rfl := hp.send
    obtain rfl := hp.state
    obtain rfl := hp.direction
    exact { hs with }
  timer := hp.send ▸ h.timer
  stopped := hp.send ▸ h.stopped
  outbound := by
    simp only [stream, hp.send, hp.direction]
    exact h.outbound

end Ready

/-- The fields `NeedsWake` and `HasCause` read, beside the segments. -/
structure Wake where
  sendQueue : List Bytes
  pendingFin : Bool
  finSent : Bool
  persist : Bool
  blocked : Bool
  transportWaiting : Bool
  immediates : Nat
  rateRetries : Nat

/-- These fields of a connection. A step that leaves them alone loses no cause. -/
def wake (c : Conn) : Wake where
  sendQueue := c.send.sendQueue
  pendingFin := c.send.pendingFin
  finSent := c.send.finSent
  persist := c.send.retransmission.persist
  blocked := c.send.pacer.blocked
  transportWaiting := c.send.transportWaiting
  immediates := c.send.immediates
  rateRetries := c.send.rateRetries

theorem wakes_congr (h : c.NeedsWake → c.HasCause) (hwake : c'.wake = c.wake)
    (hseg : c'.send.retransmission.segments = [] ↔ c.send.retransmission.segments = []) :
    c'.NeedsWake → c'.HasCause := by
  simp only [wake, Wake.mk.injEq] at hwake
  simp only [NeedsWake, HasCause, ne_eq, hseg, hwake] at h ⊢
  exact h

theorem noteLoss_blocked (p : Pacer) : p.noteLoss.blocked = p.blocked := by
  unfold Pacer.noteLoss
  dsimp only
  split <;> rfl

theorem onTCPCongestionLoss_wake (c : Conn) (reason : Reason) :
    (c.onTCPCongestionLoss cfg reason).wake = c.wake := by
  unfold onTCPCongestionLoss
  dsimp only
  split
  · rfl
  · simp only [wake, noteLoss_blocked]

/-- The retransmission callback sends, and leaves what would wake the loop as it
is. -/
theorem onRetransmit_wake (cfg : Settings) (hreg : c.registered = true) (segment : Segment)
    (reason : Reason) :
    (c.onRetransmit cfg segment reason).wake = c.wake ∧
      (c.onRetransmit cfg segment reason).send.retransmission = c.send.retransmission ∧
      (c.onRetransmit cfg segment reason).send.sending = c.send.sending := by
  unfold onRetransmit
  rw [if_neg (by simp [hreg])]
  dsimp only
  obtain ⟨wires, hwires⟩ := resend_eq cfg
    (if reason ≠ .windowOpen then c.onTCPCongestionLoss cfg reason else c) segment
  rw [hwires]
  split
  · refine ⟨onTCPCongestionLoss_wake c reason, onTCPCongestionLoss_queue cfg c reason, ?_⟩
    unfold onTCPCongestionLoss
    dsimp only [emit]
    split <;> rfl
  · exact ⟨rfl, rfl, rfl⟩

/-- A fast retransmission keeps the queue, its timer apart, and what would wake
the loop. -/
theorem fastRetransmit_wake (cfg : Settings) (turn : Turn) (hreg : c.registered = true) :
    (c.fastRetransmit cfg turn).wake = c.wake ∧
      (c.fastRetransmit cfg turn).send.retransmission.segments = c.send.retransmission.segments ∧
      (c.fastRetransmit cfg turn).send.sending = c.send.sending := by
  obtain he | ⟨segment, -, -, -, he⟩ := fastRetransmit_cases cfg turn c
  · rw [he]
    exact ⟨rfl, rfl, rfl⟩
  · obtain ⟨hwake, hqueue, hflag⟩ := onRetransmit_wake cfg (c := c.withQueue
      { c.send.retransmission with
        currentRtoMs := c.send.retransmission.initialRtoMs }.clearTimer) hreg segment .fast
    rw [he]
    refine ⟨?_, ?_, hflag⟩
    · have hpersist : ∀ c : Conn, c.armed.wake = c.wake := fun c => by
        simp [wake, armed, withQueue]
      rw [hpersist, hwake]
      rfl
    · simp only [armed, withQueue_retransmission, RetransmissionQueue.armTimer_segments, hqueue]
      rfl

/-- Fast retransmission keeps a live connection live: it sends what was sent
before. -/
theorem Live.fastRetransmit (h : Live cfg c) (turn : Turn) :
    Live cfg (c.fastRetransmit cfg turn) ∧ Evolves cfg c (c.fastRetransmit cfg turn) := by
  have hev := fastRetransmit_evolves turn h.sending h.registered
  obtain ⟨hwake, hseg, hflag⟩ := fastRetransmit_wake cfg turn h.registered
  refine ⟨⟨h.toReady.of_moves hev.sending hev.moves hev.context
    (fastRetransmit_timerExact turn h.timer) (hflag.trans h.stopped), ?_, ?_⟩, hev⟩
  · exact wakes_congr h.wakes hwake (by rw [hseg])
  · intro hs
    rw [hseg]
    refine h.awaiting ?_
    rcases hev.state with he | ⟨-, he⟩
    · exact he.symm.trans hs
    · rw [he] at hs
      cases hs

/-- The send loop makes a connection live, and throws nothing on the way. -/
theorem Ready.trySend (h : Ready cfg c) (turn : Turn)
    (hawait : c.state = .synSent → c.send.retransmission.segments ≠ []) :
    ∃ c', c.trySend cfg turn = .ok c' ∧ Live cfg c' ∧ Evolves cfg c c' ∧
      (c.send.vmWindow = 0 → c'.sent = c.sent) := by
  obtain ⟨c', hok, hd⟩ := trySend_spec turn h.sending h.registered h.stopped hawait
  have hev := hd.evolves
  refine ⟨c', hok, ⟨h.of_moves hev.sending hev.moves hev.context (hd.timer h.timer)
    hd.settled.sending, hd.settled.wakes, fun hs => ?_⟩, hev, hd.quiet⟩
  have hstate : c.state = .synSent := by
    rcases hev.state with he | ⟨-, he⟩
    · exact he.symm.trans hs
    · rw [he] at hs
      cases hs
  -- Nothing was acknowledged meanwhile, so the SYN is still outstanding.
  have hacked : c'.send.acknowledged = c.send.acknowledged :=
    congrArg Frame.acknowledged hev.frame
  have hbefore := h.sending.handshake hstate
  have hafter := hev.sending.handshake hs
  rw [hev.sending.tracked.hasOutstanding_iff]
  rw [State.history] at hbefore hafter
  have hlen := congrArg List.length (hafter.trans hbefore.symm)
  have hne := h.sending.tracked.hasOutstanding_iff.mp (hawait hstate)
  simp only [stream, List.length_append, hacked] at hlen
  exact List.ne_nil_of_length_pos (by have := List.length_pos_iff.mpr hne; omega)

theorem Ready.of_eq_send (h : Ready cfg c) (hsending : c'.Sending cfg)
    (hstream : c'.stream = c.stream) (hcontext : c'.context = c.context)
    (htimer : c'.send.retransmission.TimerExact) (hstopped : c'.send.sending = false) :
    Ready cfg c' :=
  h.of_moves hsending (by rw [Moves, hstream]; exact .refl _) hcontext htimer hstopped

/-- The three steps both handlers take when an acknowledgement advances: the
queue, congestion control, the window. -/
theorem Live.advance (h : Live cfg c) {c₁ : Conn} {ackNum : Seq} {ackedDataBytes : Nat}
    (seqNum : Seq) (hack : Acknowledged cfg c c₁ ackNum ackedDataBytes) (window : BitVec 16) :
    let c₂ := (c₁.updateTCPWindow seqNum ackNum window.toNat).1
    let c₃ := c₂.noteAdvancedAck cfg ackedDataBytes ackNum
    Ready cfg c₃ ∧ Moves Proper c c₃ ∧ c₃.context = c.context ∧ c₃.state = c.state ∧
      (c.state = .synSent → c₃.send.retransmission.hasOutstanding = false) := by
  intro c₂ c₃
  obtain ⟨vmWindow, windowUpdate, hc₂, hbound, -⟩ :=
    updateTCPWindow_eq c₁ seqNum ackNum window
  change c₂ = _ at hc₂
  have hforget : c₂.forget.Sending cfg := by
    rw [hc₂]
    exact hack.sending.withWindow hbound windowUpdate
  have hpoint : ∀ r, c₂.send.congestionRecoveryUntil = some r →
      ackedDataBytes = 0 ∨ ¬(ackNum = r ∨ seqLessThan r ackNum = true) → c₂.RecoveryPoint r := by
    rw [hc₂]
    exact hack.recovery
  obtain ⟨hev, hqueue, hflag, hstate⟩ := noteAdvancedAck_spec hforget hpoint
  have hstep : Moves Proper c c₂ := by
    have hproper : Proper c.stream (.acknowledge (c.ackedItems ackNum)) := trivial
    refine ⟨_, .single ⟨hproper, ?_⟩⟩
    rw [hc₂]
    change SendStream.Step _ _ _ c₁.stream
    rw [hack.stream]
    exact .acknowledge c.stream _
  have hmoves : Moves Proper c c₃ := hstep.trans hev.moves
  have hcontext : c₃.context = c.context := by
    rw [hev.context, hc₂, hack.rest]
    rfl
  have hstate' : c₃.state = c.state := by
    rw [hstate, hc₂, hack.rest]
  have hqueue' : c₃.send.retransmission = c₁.send.retransmission := by
    rw [hqueue, hc₂]
  refine ⟨h.toReady.of_moves hev.sending hmoves hcontext ?_ ?_, hmoves, hcontext, hstate', ?_⟩
  · rw [hqueue']
    exact hack.timer h.timer
  · rw [hflag, hc₂, hack.rest]
    exact h.stopped
  · intro hs
    -- The SYN is the only item there is, and it has just been acknowledged.
    have hhistory := h.sending.handshake hs
    have hlen := congrArg List.length hhistory
    rw [State.history, List.length_append] at hlen
    have hcovered := hack.covered
    have hitems : c₁.send.retransmission.items = [] := by
      have := congrArg State.outstanding hack.stream
      change c₁.send.retransmission.items = c.stream.outstanding.drop _ at this
      rw [this]
      refine List.drop_of_length_le ?_
      simp only [List.length_cons, List.length_nil] at hlen
      omega
    have htracked : c₁.send.retransmission.WellTracked := hack.sending.tracked
    have hseg : c₁.send.retransmission.segments = [] := by
      by_contra hne
      exact htracked.hasOutstanding_iff.mp hne hitems
    rw [hqueue', RetransmissionQueue.hasOutstanding, hseg]
    rfl

/-- An acknowledgement that moves nothing: the queue may count, the window may
change. -/
theorem Live.duplicate (h : Live cfg c) {q : RetransmissionQueue} (seqNum ackNum : Seq)
    (hq : c.send.retransmission.SameStream q)
    (hseg : q.segments = c.send.retransmission.segments)
    (hpersist : q.persist = c.send.retransmission.persist)
    (htimer : c.send.retransmission.TimerExact → q.TimerExact) (window : BitVec 16) :
    let c₂ := ((c.withQueue q).updateTCPWindow seqNum ackNum window.toNat).1
    Live cfg c₂ ∧ Moves Proper c c₂ ∧ c₂.context = c.context ∧ c₂.state = c.state := by
  intro c₂
  obtain ⟨vmWindow, windowUpdate, hc₂, hbound, -⟩ :=
    updateTCPWindow_eq (c.withQueue q) seqNum ackNum window
  change c₂ = _ at hc₂
  have hsending : c₂.Sending cfg := by
    rw [hc₂]
    exact (h.sending.withQueue hq).withWindow hbound windowUpdate
  have hstream : c₂.stream = c.stream := by
    rw [hc₂]
    exact Sending.withQueue_stream hq.items
  have hcontext : c₂.context = c.context := by
    rw [hc₂]
    rfl
  have hqueue : c₂.send.retransmission = q := by rw [hc₂]; rfl
  have hseg₂ : c₂.send.retransmission.segments = c.send.retransmission.segments := by
    rw [hqueue, hseg]
  refine ⟨⟨h.toReady.of_eq_send hsending hstream hcontext (hqueue ▸ htimer h.timer) ?_, ?_, ?_⟩,
    ?_, hcontext, ?_⟩
  · rw [hc₂]
    exact h.stopped
  · refine wakes_congr h.wakes ?_ (by rw [hseg₂])
    rw [hc₂]
    simp [wake, withQueue, hpersist]
  · rw [hc₂] at hseg₂ ⊢
    intro hs
    rw [hseg₂]
    exact h.awaiting hs
  · rw [Moves, hstream]
    exact .refl _
  · rw [hc₂]
    rfl

/-- Counting a duplicate acknowledgement, with the fast retransmission it may
cause, keeps a connection live. -/
theorem Live.noteDuplicateAck (h : Live cfg c) (turn : Turn) (ackNum : Seq) :
    Live cfg (c.noteDuplicateAck cfg turn ackNum) ∧
      Moves Proper c (c.noteDuplicateAck cfg turn ackNum) ∧
      (c.noteDuplicateAck cfg turn ackNum).context = c.context ∧
      ((c.noteDuplicateAck cfg turn ackNum).state = c.state ∨
        c.state ≠ .synSent ∧ (c.noteDuplicateAck cfg turn ackNum).state = .finWait) := by
  have hcount : ∀ (c : Conn) (dupAckCount : Nat), Live cfg c →
      Live cfg { c with send := { c.send with dupAckCount } } := fun c n h =>
    ⟨h.toReady.of_eq_send { h.sending with } rfl rfl h.timer h.stopped, h.wakes, h.awaiting⟩
  unfold Conn.noteDuplicateAck
  dsimp only
  split
  · split
    · obtain ⟨hlive, hev⟩ := (hcount c (c.send.dupAckCount + 1) h).fastRetransmit turn
      exact ⟨hcount _ 0 hlive, hev.moves, hev.context, hev.state⟩
    · exact ⟨hcount c 0 h, .refl _, rfl, .inl rfl⟩
  · exact ⟨hcount c _ h, .refl _, rfl, .inl rfl⟩

end Conn

end RootlessRelay
