import RootlessRelay.Tcp.Segments

/-!
# The retransmission timer of a live connection

A timer callback is superseded, gives the connection up, repeats the oldest
segment, or, in persist mode, probes: with one byte of the oldest segment, with
one new byte, or with a FIN that is waiting. `Probed` is what every probe does.

A probe is the only place that sends a FIN without looking at `finSent`. Whether
it may do so is a parameter of the lemmas here: `allowed` says which moves of
the outgoing stream count as correct, and a caller that wants to exclude the
second FIN assumes that the timer does not run into it. The superseded timer is
recognised by its generation, as in the queue.
-/

namespace RootlessRelay

open SequenceSpace Transition SendStream

namespace Conn

variable {cfg : Settings} {turn : Turn} {c c' c'' : Conn}

/-- The probe would send a FIN, and one has been sent already. This is the slip
in `onPersistProbe`. -/
def ProbesSecondFin (turn : Turn) (c : Conn) : Prop :=
  turn.bufferedAmount c.sent.length ≤ 32768 ∧ c.send.retransmission.segments = [] ∧
    c.send.sendQueueBytes = 0 ∧ c.send.pendingFin = true ∧ c.send.finSent = true

/-- What a probe does to a live connection: it sends one segment of at most one
byte, or nothing. -/
structure Probed (allowed : State Item Byte → Action Byte → Prop) (cfg : Settings)
    (c c' : Conn) : Prop where
  sending : c'.Sending cfg
  moves : Moves allowed c c'
  frame : c'.frame = c.frame
  state : c'.state = c.state ∨ c.state ≠ .synSent ∧ c'.state = .finWait
  sent : c'.sent = c.sent ∨ ∃ wire, c'.sent = c.sent ++ [wire] ∧ wire.payload.length ≤ 1 ∧
    wire.sequence = c.send.retransmission.sndUna
  persist : c'.send.retransmission.persist = c.send.retransmission.persist
  segments : c.send.retransmission.segments ≠ [] → c'.send.retransmission.segments ≠ []
  stopped : c'.send.sending = c.send.sending

/-- With an empty queue everything that was sent has been acknowledged. -/
theorem Sending.segments_nil (h : c.Sending cfg) (hseg : c.send.retransmission.segments = []) :
    c.send.relaySeq = c.send.retransmission.sndUna ∧
      c.send.retransmission.payloadBytesInFlight = 0 ∧ c.stream.outstanding = [] := by
  have hitems : c.send.retransmission.items = [] := by
    simp [RetransmissionQueue.items, hseg]
  refine ⟨?_, ?_, hitems⟩
  · rw [h.next, h.tracked.next, hitems]
    exact position_zero _
  · rw [h.tracked.inFlight, hitems]
    rfl

/-- `onPersistProbe` on a live connection does not throw, and does what `Probed`
says. -/
theorem onPersistProbe_spec {allowed : State Item Byte → Action Byte → Prop} (turn : Turn)
    (hallowed : ∀ s a, Proper s a → allowed s a)
    (hsecond : c.ProbesSecondFin turn → allowed c.stream .finish)
    (h : c.Sending cfg) (hreg : c.registered = true)
    (hawait : c.state = .synSent → c.send.retransmission.segments ≠ []) :
    ∃ c' result, c.onPersistProbe cfg turn c.send.retransmission.oldest = (c', result) ∧
      result ≠ .threw ∧ Probed allowed cfg c c' := by
  have hsame : Probed allowed cfg c c :=
    ⟨h, .refl _, rfl, .inl rfl, .inl rfl, rfl, id, rfl⟩
  unfold onPersistProbe
  rw [if_neg (by simp [hreg, h.notClosed])]
  by_cases hws : turn.bufferedAmount c.sent.length > 32768
  · rw [if_pos hws]
    exact ⟨c, _, rfl, by decide, hsame⟩
  rw [if_neg hws]
  cases hold : c.send.retransmission.segments with
  | cons segment rest =>
      have hseq : segment.seq = c.send.retransmission.sndUna := by
        have := h.tracked.contiguous
        rw [hold] at this
        exact this.1
      simp only [RetransmissionQueue.oldest, hold, List.head?_cons]
      have hshort : (segment.payload.take 1).length ≤ c.tcpMss cfg :=
        Nat.le_trans (List.length_take_le _ _) (tcpMss_pos cfg c)
      rw [sendTCP_short cfg hshort, sendChunk_resend]
      refine ⟨_, _, rfl, by decide, h.emit _, .refl _, rfl, .inl rfl, .inr ⟨_, rfl, ?_, hseq⟩, rfl, ?_,
        rfl⟩
      · exact List.length_take_le _ _
      · exact id
  | nil =>
      obtain ⟨hnext, hfly, hout⟩ := h.segments_nil hold
      have hstate : c.state ≠ .synSent := fun hs => hawait hs hold
      simp only [RetransmissionQueue.oldest, hold, List.head?_nil]
      by_cases hbytes : c.send.sendQueueBytes > 0
      · rw [if_pos hbytes]
        obtain ⟨left, htake, hflat, hne⟩ := takeQueuedBytes_spec (Nat.one_pos : 0 < 1)
          (by decide) (show 1 ≤ maxSafeInteger by decide) (h.queueBytes ▸ hbytes) h.chunks
        obtain ⟨hsending, hstep⟩ := h.sendBytes { ack := true } Nat.one_pos hbytes hstate
          (by omega) hflat hne rfl rfl
        have hlen : (c.send.sendQueue.flatten.take 1).length = 1 :=
          List.length_take_of_le (h.queueBytes ▸ hbytes)
        have hitems : itemsOf (c.send.sendQueue.flatten.take 1) { ack := true } ≠ [] := by
          intro hnil
          have hzero := congrArg List.length hnil
          simp only [itemsOf_length, sequenceLength, hlen, List.length_nil] at hzero
          omega
        have hsend := sendTrackedTCP_eq (c := c.withSendQueue left) cfg h.opened h.live h.next
          (by rw [hlen]; exact tcpMss_pos cfg c) hitems rfl
        rw [htake]
        dsimp only
        rw [hsend]
        have hproper : Proper c.stream (.transmit 1) := trivial
        exact ⟨_, _, rfl, by decide, hsending, ⟨_, .single ⟨hallowed _ _ hproper, hstep⟩⟩, rfl, .inl rfl,
          .inr ⟨_, rfl, Nat.le_of_eq hlen, hnext⟩,
          RetransmissionQueue.tracked_persist (q := c.send.retransmission),
          fun _ => RetransmissionQueue.tracked_segments_ne_nil, rfl⟩
      rw [if_neg hbytes]
      by_cases hpending : c.send.pendingFin = true
      · rw [if_pos hpending]
        have hqueue : c.send.sendQueue = [] := by
          by_contra hne
          exact hbytes (h.sendQueueBytes_pos hne)
        obtain ⟨hok, hsending, hstep⟩ := h.sendFin hstate hpending hqueue (by simp [hout])
        rw [hok]
        have hproper : allowed c.stream .finish := by
          cases hfin : c.send.finSent with
          | false => exact hallowed _ _ hfin
          | true => exact hsecond ⟨Nat.le_of_not_gt hws, hold, Nat.eq_zero_of_not_pos hbytes,
              hpending, hfin⟩
        exact ⟨_, _, rfl, by decide, hsending, ⟨_, .single ⟨hproper, hstep⟩⟩, rfl,
          .inr ⟨hstate, rfl⟩, .inr ⟨_, rfl, Nat.zero_le _, hnext⟩,
          RetransmissionQueue.tracked_persist (q := c.send.retransmission),
          fun _ => RetransmissionQueue.tracked_segments_ne_nil, rfl⟩
      · rw [if_neg hpending]
        exact ⟨c, _, rfl, by decide, hsame⟩

/-- The segments a timer callback sends on a connection it does not give up.
They repeat the oldest segment or a byte of it, or probe. -/
inductive Fires (c : Conn) : List WireSegment → Prop
  | nothing : Fires c []
  | probe {wire : WireSegment} (persist : c.send.retransmission.persist = true)
      (short : wire.payload.length ≤ 1)
      (sequence : wire.sequence = c.send.retransmission.sndUna) : Fires c [wire]
  | again {wires : List WireSegment} {segment : Segment}
      (persist : c.send.retransmission.persist = false)
      (oldest : c.send.retransmission.oldest = some segment)
      (budget : c.send.retransmission.timeoutRetransmissions <
        c.send.retransmission.maxRetransmissions)
      (empty : segment.payload = [] → ∀ wire ∈ wires, wire.payload = []) : Fires c wires

/-- What a timer callback does to a connection it does not give up. -/
structure Fired (allowed : State Item Byte → Action Byte → Prop) (cfg : Settings)
    (c c' : Conn) : Prop where
  sending : c'.Sending cfg
  moves : Moves allowed c c'
  frame : c'.frame = c.frame
  state : c'.state = c.state ∨ c.state ≠ .synSent ∧ c'.state = .finWait
  stopped : c'.send.sending = c.send.sending
  persist : c'.send.retransmission.persist = c.send.retransmission.persist
  segments : c.send.retransmission.segments ≠ [] → c'.send.retransmission.segments ≠ []
  wake : c.send.retransmission.segments = [] → c.send.retransmission.persist = false →
    c'.wake = c.wake
  sent : ∃ wires, c'.sent = c.sent ++ wires ∧ c.Fires wires

/-- The connection was given up: it has left the map, and a reset at most was
sent. -/
structure GivenUp (c c' : Conn) : Prop where
  registered : c'.registered = false
  delivered : c'.recv.core.delivered = c.recv.core.delivered
  window : c'.send.vmWindow = c.send.vmWindow
  sent : Silent c c'

/-- Either of the two ways of aborting, with or without a reset. -/
theorem abort_givenUp (cfg : Settings) (turn : Turn) (c : Conn) (sendReset : Bool) :
    GivenUp c (c.abort cfg turn sendReset) := by
  refine ⟨abort_registered cfg turn c sendReset, abort_delivered turn c sendReset, ?_, ?_⟩
  · unfold abort abortTCPConnection abortReverseConnection
    dsimp only
    rw [sendTCP_control cfg (.inr rfl), sendTCP_control cfg (.inr rfl)]
    split <;> split
    · rfl
    · split <;> rfl
    · rfl
    · split <;> rfl
  · unfold abort abortTCPConnection abortReverseConnection
    dsimp only
    rw [sendTCP_control cfg (.inr rfl), sendTCP_control cfg (.inr rfl)]
    split <;> split
    · exact ⟨[], by simp⟩
    · split
      · exact ⟨_, rfl, by simp [wire]⟩
      · exact ⟨[], (List.append_nil _).symm, by simp⟩
    · exact ⟨[], by simp⟩
    · split
      · exact ⟨_, rfl, by simp [wire]⟩
      · exact ⟨[], (List.append_nil _).symm, by simp⟩

theorem giveUp_spec (cfg : Settings) (turn : Turn) (c : Conn) : GivenUp c (c.giveUp cfg turn) := by
  obtain ⟨hreg, hdel, hwindow, hsent⟩ := abort_givenUp cfg turn
    (c.withQueue { c.send.retransmission with exhausted := true }.clearTimer) true
  exact ⟨hreg, hdel, hwindow, hsent⟩

theorem resend_empty (cfg : Settings) (c : Conn) {segment : Segment}
    (hempty : segment.payload = []) :
    ∃ wire, c.resend cfg segment = c.emit [wire] ∧ wire.payload = [] := by
  unfold resend
  rw [sendTCP_short cfg (by simp [hempty]), sendChunk_resend]
  exact ⟨_, rfl, hempty⟩

/-- A retransmission after a timeout: the oldest segment goes out again, and
nothing else does. -/
theorem retransmitOldest_spec {allowed : State Item Byte → Action Byte → Prop}
    (hallowed : ∀ s a, Proper s a → allowed s a) (h : c.Sending cfg) (hreg : c.registered = true)
    {segment : Segment} (hold : c.send.retransmission.oldest = some segment)
    (hpersist : c.send.retransmission.persist = false)
    (hbudget : c.send.retransmission.timeoutRetransmissions <
      c.send.retransmission.maxRetransmissions) :
    Fired allowed cfg c (c.retransmitOldest cfg segment) := by
  have hseg : c.send.retransmission.segments ≠ [] := by
    intro hnil
    simp [RetransmissionQueue.oldest, hnil] at hold
  unfold retransmitOldest
  generalize hc₁ : c.withQueue { c.send.retransmission.countTimeout with
    segments := RetransmissionQueue.countRetransmission c.send.retransmission.segments } = c₁
  have hev₁ : Evolves cfg c c₁ := by
    rw [← hc₁]
    exact .withQueue h (RetransmissionQueue.countRetransmission_sameStream _)
  have hreg₁ : c₁.registered = true := hev₁.registered.trans hreg
  have hev₂ := onRetransmit_evolves hev₁.sending hreg₁
    { segment with retransmissions := segment.retransmissions + 1 } .timeout
  obtain ⟨-, hqueue, hflag⟩ := onRetransmit_wake cfg (c := c₁) hreg₁
    { segment with retransmissions := segment.retransmissions + 1 } .timeout
  have hsent : ∃ wires, (c₁.onRetransmit cfg
      { segment with retransmissions := segment.retransmissions + 1 } .timeout).sent =
        c.sent ++ wires ∧ (segment.payload = [] → ∀ wire ∈ wires, wire.payload = []) := by
    have hloss : (c₁.onTCPCongestionLoss cfg .timeout).sent = c.sent := by
      rw [← hc₁]
      unfold onTCPCongestionLoss
      dsimp only
      split <;> rfl
    unfold onRetransmit
    rw [if_neg (by simp [hreg₁])]
    dsimp only
    rw [if_pos (by decide)]
    by_cases hempty : segment.payload = []
    · have hempty' : ({ segment with
          retransmissions := segment.retransmissions + 1 } : Segment).payload = [] := hempty
      obtain ⟨wire, he, hw⟩ := resend_empty cfg (c₁.onTCPCongestionLoss cfg .timeout) hempty'
      rw [he]
      exact ⟨[wire], by rw [emit_sent, hloss], fun _ => by simpa using hw⟩
    · obtain ⟨wires, he⟩ := resend_eq cfg (c₁.onTCPCongestionLoss cfg .timeout)
        { segment with retransmissions := segment.retransmissions + 1 }
      rw [he]
      exact ⟨wires, by rw [emit_sent, hloss], fun hn => absurd hn hempty⟩
  have hsegments : c₁.send.retransmission.segments ≠ [] := by
    rw [← hc₁]
    intro hnil
    cases hs : c.send.retransmission.segments with
    | nil => exact hseg hs
    | cons => simp [hs, RetransmissionQueue.countRetransmission] at hnil
  have hpersist₁ : c₁.send.retransmission.persist = c.send.retransmission.persist := by
    rw [← hc₁]
    rfl
  generalize c₁.onRetransmit cfg { segment with retransmissions := segment.retransmissions + 1 }
    .timeout = c₂ at hev₂ hqueue hflag hsent ⊢
  have hev₃ := Evolves.withQueue hev₂.sending (q := c₂.send.retransmission.backOff)
    (RetransmissionQueue.SameStream.backOff (.of_segments rfl rfl rfl rfl rfl rfl))
  have hev := (hev₁.trans hev₂).trans hev₃
  obtain ⟨wires, hwires, hempty⟩ := hsent
  refine ⟨hev.sending, ?_, hev.frame, hev.state, ?_, ?_, fun _ => ?_, fun hnil => absurd hnil hseg,
    wires, hwires, .again hpersist hold hbudget hempty⟩
  · exact Reaches.trans (.refl _) (by
      obtain ⟨es, hrun⟩ := hev.moves
      exact ⟨es, hrun.mono fun _ _ _ hs => ⟨hallowed _ _ hs.1, hs.2⟩⟩)
  · refine hflag.trans ?_
    rw [← hc₁]
    rfl
  · simp only [withQueue_retransmission, RetransmissionQueue.backOff,
      RetransmissionQueue.armTimer_persist]
    rw [hqueue, hpersist₁]
  · simp only [withQueue_retransmission, RetransmissionQueue.backOff,
      RetransmissionQueue.armTimer_segments]
    rw [hqueue]
    exact hsegments

/-- Changing timers and counters of the queue first makes no difference to what
is sent. -/
theorem Fired.of_withQueue {allowed : State Item Byte → Action Byte → Prop}
    {q : RetransmissionQueue} (hq : c.send.retransmission.SameStream q)
    (hseg : q.segments = c.send.retransmission.segments)
    (hpersist : q.persist = c.send.retransmission.persist)
    (hcount : q.timeoutRetransmissions = c.send.retransmission.timeoutRetransmissions)
    (hmax : q.maxRetransmissions = c.send.retransmission.maxRetransmissions)
    (h : Fired allowed cfg (c.withQueue q) c') : Fired allowed cfg c c' where
  sending := h.sending
  moves := (Moves.of_stream (Sending.withQueue_stream hq.items)).trans h.moves
  frame := h.frame
  state := h.state
  stopped := h.stopped
  persist := h.persist.trans hpersist
  segments hne := h.segments (by simpa [hseg] using hne)
  wake hnil hoff := by
    refine (h.wake (by simpa [hseg] using hnil) (by simpa [hpersist] using hoff)).trans ?_
    simp [Conn.wake, Conn.withQueue, hpersist]
  sent := by
    obtain ⟨wires, hsent, hfires⟩ := h.sent
    refine ⟨wires, hsent, ?_⟩
    cases hfires with
    | nothing => exact .nothing
    | probe hp short sequence => exact .probe (hpersist.symm.trans hp) short (sequence.trans hq.sndUna)
    | again hp oldest budget empty =>
        refine .again (hpersist.symm.trans hp) ?_ ?_ empty
        · simpa [RetransmissionQueue.oldest, hseg] using oldest
        · simpa [hcount, hmax] using budget

/-- A probe of the timer in persist mode, with the backed-off timer it leaves
behind. -/
theorem probe_spec {allowed : State Item Byte → Action Byte → Prop} (turn : Turn)
    (hallowed : ∀ s a, Proper s a → allowed s a)
    (hsecond : c.ProbesSecondFin turn → allowed c.stream .finish)
    (h : c.Sending cfg) (hreg : c.registered = true)
    (hawait : c.state = .synSent → c.send.retransmission.segments ≠ [])
    (hpersist : c.send.retransmission.persist = true) :
    Fired allowed cfg c (c.probe cfg turn) := by
  have hcounted := h.withQueue (RetransmissionQueue.countTimeout_sameStream c.send.retransmission)
  obtain ⟨c₂, result, hprobe, hthrew, hp⟩ := onPersistProbe_spec
    (c := c.withQueue c.send.retransmission.countTimeout) turn hallowed hsecond hcounted hreg hawait
  -- Whatever the queue counts afterwards, it backs off and stays in persist mode.
  have hafter : ∀ q : RetransmissionQueue, c₂.send.retransmission.SameStream q →
      q.segments = c₂.send.retransmission.segments →
      q.persist = c₂.send.retransmission.persist → Fired allowed cfg c (c₂.withQueue q) := by
    intro q hq hseg hkeep
    refine ⟨hp.sending.withQueue hq, ?_, hp.frame, hp.state, hp.stopped, ?_, ?_, ?_, ?_⟩
    · exact ((Moves.of_stream (Sending.withQueue_stream
        (RetransmissionQueue.countTimeout_sameStream c.send.retransmission).items)).trans
          hp.moves).trans (Moves.of_stream (Sending.withQueue_stream hq.items))
    · exact hkeep.trans hp.persist
    · intro hne
      rw [withQueue_retransmission, hseg]
      exact hp.segments hne
    · intro _ hoff
      rw [hpersist] at hoff
      cases hoff
    · rcases hp.sent with hsent | ⟨wire, hsent, hshort, hsequence⟩
      · exact ⟨[], by rw [withQueue_sent, hsent, List.append_nil]; rfl, .nothing⟩
      · exact ⟨[wire], hsent, .probe hpersist hshort hsequence⟩
  unfold probe
  have hold : c.send.retransmission.oldest =
      (c.withQueue c.send.retransmission.countTimeout).send.retransmission.oldest := rfl
  rw [hold, hprobe]
  cases result with
  | returned =>
      exact hafter _ (RetransmissionQueue.SameStream.backOff (.of_segments rfl rfl rfl rfl rfl rfl))
        (RetransmissionQueue.armTimer_segments _) (RetransmissionQueue.armTimer_persist _)
  | refused =>
      exact hafter _ (RetransmissionQueue.SameStream.backOff (.of_segments rfl rfl rfl rfl rfl rfl))
        (RetransmissionQueue.armTimer_segments _) (RetransmissionQueue.armTimer_persist _)
  | threw => exact absurd rfl hthrew

/-- `handleTimeout` gives the connection up, probes or retransmits, by the mode
and the budget. -/
theorem onTimeout_spec {allowed : State Item Byte → Action Byte → Prop} (turn : Turn)
    (hallowed : ∀ s a, Proper s a → allowed s a)
    (hsecond : c.send.retransmission.persist = true →
      c.send.retransmission.timeoutRetransmissions < c.send.retransmission.maxRetransmissions →
      c.ProbesSecondFin turn → allowed c.stream .finish)
    (h : c.Sending cfg) (hreg : c.registered = true)
    (hawait : c.state = .synSent → c.send.retransmission.segments ≠ []) :
    (c.send.retransmission.maxRetransmissions ≤ c.send.retransmission.timeoutRetransmissions ∧
        GivenUp c (c.onTimeout cfg turn)) ∨ Fired allowed cfg c (c.onTimeout cfg turn) := by
  unfold onTimeout
  dsimp only
  by_cases hpersist : c.send.retransmission.persist = true
  · rw [if_pos hpersist]
    split
    · rename_i hbudget
      exact .inl ⟨hbudget, giveUp_spec cfg turn c⟩
    · rename_i hbudget
      exact .inr (probe_spec turn hallowed (hsecond hpersist (Nat.lt_of_not_ge hbudget)) h hreg
        hawait hpersist)
  · rw [if_neg hpersist]
    have hoff : c.send.retransmission.persist = false := by simpa using hpersist
    cases hold : c.send.retransmission.oldest with
    | none =>
        exact .inr ⟨h, .refl _, rfl, .inl rfl, rfl, rfl, id, fun _ _ => rfl, [], by simp, .nothing⟩
    | some segment =>
        dsimp only
        split
        · rename_i hbudget
          exact .inl ⟨hbudget, giveUp_spec cfg turn c⟩
        · rename_i hbudget
          exact .inr (retransmitOldest_spec hallowed h hreg hold hoff (Nat.lt_of_not_ge hbudget))

/-- The timer of generation `generation` is current and runs into a probe with a
second FIN. -/
def TimerRepeatsFin (turn : Turn) (c : Conn) (generation : Nat) : Prop :=
  generation = c.send.retransmission.timerGeneration ∧
    c.send.retransmission.persist = true ∧
    c.send.retransmission.timeoutRetransmissions < c.send.retransmission.maxRetransmissions ∧
    c.ProbesSecondFin turn

instance (turn : Turn) (c : Conn) : Decidable (c.ProbesSecondFin turn) :=
  inferInstanceAs (Decidable (_ ∧ _))

instance (turn : Turn) (c : Conn) (generation : Nat) :
    Decidable (c.TimerRepeatsFin turn generation) :=
  inferInstanceAs (Decidable (_ ∧ _))

/-- A timer callback gives a live connection up because its budget is spent, or
does what `Fired` says. -/
theorem fireRetransmissionTimer_spec {allowed : State Item Byte → Action Byte → Prop}
    (turn : Turn) (generation : Nat) (hallowed : ∀ s a, Proper s a → allowed s a)
    (hsecond : c.TimerRepeatsFin turn generation → allowed c.stream .finish) (h : Live cfg c) :
    (c.send.retransmission.maxRetransmissions ≤ c.send.retransmission.timeoutRetransmissions ∧
        GivenUp c (c.fireRetransmissionTimer cfg turn generation)) ∨
      Fired allowed cfg c (c.fireRetransmissionTimer cfg turn generation) := by
  have hs := h.sending
  by_cases hcurrent : generation = c.send.retransmission.timerGeneration
  · subst hcurrent
    rw [fireRetransmissionTimer_live cfg turn hs.opened hs.live]
    have hsame : c.send.retransmission.SameStream
        { c.send.retransmission with
          scheduled := c.send.retransmission.scheduled.erase c.send.retransmission.timerGeneration
          timer := none } := .of_segments rfl rfl rfl rfl rfl rfl
    have hstream : (c.timerStarted c.send.retransmission.timerGeneration).stream = c.stream :=
      Sending.withQueue_stream hsame.items
    refine (onTimeout_spec turn hallowed (fun hpersist hbudget hprobe => ?_) (hs.withQueue hsame)
      h.registered h.awaiting).imp (fun ⟨hspent, hover⟩ => ⟨hspent, hover.registered, hover.delivered,
        hover.window, hover.sent⟩) (Fired.of_withQueue hsame rfl rfl rfl rfl)
    have hallow := hsecond ⟨rfl, hpersist, hbudget, hprobe⟩
    rwa [← hstream] at hallow
  · rw [fireRetransmissionTimer_superseded cfg turn (.inl hcurrent)]
    refine .inr (.of_withQueue (.of_segments rfl rfl rfl rfl rfl rfl) rfl rfl rfl rfl ?_)
    have hsending := hs.withQueue (q := { c.send.retransmission with
      scheduled := c.send.retransmission.scheduled.erase generation })
      (.of_segments rfl rfl rfl rfl rfl rfl)
    exact ⟨hsending, .refl _, rfl, .inl rfl, rfl, rfl, id, fun _ _ => rfl, [], by simp, .nothing⟩

/-- The queue's timer is right after the callback of any timer, current or
superseded. -/
theorem fireRetransmissionTimer_timerExact (cfg : Settings) (turn : Turn) (generation : Nat)
    (h : c.send.retransmission.TimerExact) :
    (c.fireRetransmissionTimer cfg turn generation).send.retransmission.TimerExact := by
  unfold fireRetransmissionTimer
  exact RetransmissionQueue.fireTimer_timerExact (lawfulCallbacks cfg turn) h c generation

end Conn

end RootlessRelay
