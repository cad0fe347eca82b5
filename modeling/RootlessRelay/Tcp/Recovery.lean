import RootlessRelay.Tcp.Closing

/-!
# A recovery episode

A fast retransmission with payload in flight opens an episode, which lasts until
its recovery point is acknowledged. During the episode nothing new is sent,
there is no second fast-retransmit loss, and an acknowledgement of payload below
the recovery point repeats the oldest segment once. The exception is an
acknowledgement that covers a FIN and no payload: `onTCPCongestionAck` returns
early, and the duplicates that follow count as a new loss.

`Recovering` is the invariant between two events of an episode, and
`OneReduction` is what one event does. The send loop has nothing to send while
the recovery lasts, so every callback that runs it adds at most a repetition of
the oldest segment (`Idles`); payload and FIN of the VM only add
acknowledgements (`OnlyAcks`). A timeout outside persist mode is a reduction of
its own, and the steps say so.
-/

namespace RootlessRelay

open SequenceSpace Transition SendStream

namespace Conn

section Definitions

variable (cfg : Settings) (c : Conn) (seg : VMSegment)

/-- The fields of congestion control, and the two ends of the retransmission
queue. -/
structure Congestion where
  congestionWindow : Nat
  congestionThreshold : Nat
  congestionRecoveryUntil : Option Seq
  fastRetransmitAck : Option Seq
  sndUna : Seq
  sndNxt : Seq

/-- Everything an episode is about, as one value that the frame lemmas can keep. -/
def congestion : Congestion where
  congestionWindow := c.send.congestionWindow
  congestionThreshold := c.send.congestionThreshold
  congestionRecoveryUntil := c.send.congestionRecoveryUntil
  fastRetransmitAck := c.send.fastRetransmitAck
  sndUna := c.send.retransmission.sndUna
  sndNxt := c.send.retransmission.sndNxt

/-- The segments one retransmission of `segment` hands to `sendIPToVM`. -/
def resendWires (segment : Segment) : List WireSegment :=
  (c.resend cfg segment).sent.drop c.sent.length

/-- A third duplicate acknowledgement, for a number that has not been repaired,
while payload is in flight: `fastRetransmit` runs and `onTCPCongestionLoss`
takes it for a loss. -/
def FastLoss : Prop :=
  (seg.ack = true ∧ seg.rst = false ∧ seg.ackNum = c.send.retransmission.sndUna) ∧
    (c.updateTCPWindow seg.seqNum seg.ackNum seg.window.toNat).1.isDuplicateAck seg
      (c.updateTCPWindow seg.seqNum seg.ackNum seg.window.toNat).2 = true ∧
    c.send.dupAckCount + 1 = 3 ∧ c.send.fastRetransmitAck ≠ some seg.ackNum ∧
    c.send.retransmission.persist = false ∧ c.send.retransmission.closed = false ∧
    c.send.retransmission.exhausted = false ∧ c.send.retransmission.payloadBytesInFlight ≠ 0

/-- The payload an acknowledgement number covers, taken from the outgoing
stream. -/
def coveredData (ackNum : Seq) : Bytes :=
  dataOf (c.stream.outstanding.take (c.ackedItems ackNum))

/-- The handler processes an acknowledgement that advances `sndUna`. -/
def Advances : Prop :=
  ¬c.Drops seg ∧ seg.ack = true ∧ 0 < c.ackedItems seg.ackNum

/-- The acknowledgement covers a FIN, and no payload. It is the case in which an
episode goes wrong. -/
def CoversFinOnly : Prop := c.Advances seg ∧ c.coveredData seg.ackNum = []

/-- The acknowledgement covers payload, but not everything up to the recovery
point. -/
def CoversPart (r : Seq) : Prop :=
  c.Advances seg ∧ c.coveredData seg.ackNum ≠ [] ∧ seg.ackNum ≠ r

/-- The retransmission timer runs outside persist mode, and it is the current
one. -/
def RtoFires : Event → Prop
  | .retransmissionTimer generation =>
    generation = c.send.retransmission.timerGeneration ∧ c.send.retransmission.persist = false
  | _ => False

/-- A step that does not acknowledge the recovery point `r`. -/
def EpisodeStep (r : Seq) : Conn → Turn × Event → Conn → Prop :=
  Restrict (Step cfg) fun _ label => ¬Brings (fun seg => seg.ack = true ∧ seg.ackNum = r) label.2

end Definitions

/-- One step of a recovery episode with recovery point `r`: what may be
repeated, and that the window stays. -/
structure OneReduction (cfg : Settings) (r : Seq) (c : Conn) (label : Turn × Event) (c' : Conn) :
    Prop where
  /-- Neither data nor a FIN enters sequence space. -/
  sndNxt : c'.send.retransmission.sndNxt = r
  noSecondLoss : ∀ seg, label.2 = .segment seg → ¬c.FastLoss seg
  window : ¬c.RtoFires label.2 →
    c'.send.congestionWindow = c.send.congestionWindow ∧
      c'.send.congestionThreshold = c.send.congestionThreshold
  /-- The head of the queue is repeated once; leaving persist mode repeats it as
  well. -/
  head : ∀ seg, label.2 = .segment seg → c.CoversPart seg r →
    ∃ segment repair acks, c'.send.retransmission.oldest = some segment ∧
      c'.sent = c.sent ++ c.resendWires cfg segment ++ repair ++ acks ∧
      (repair = [] ∨ c.send.retransmission.persist = true ∧ 0 < c'.send.vmWindow ∧
        repair = c.resendWires cfg segment) ∧
      ∀ wire ∈ acks, ¬wire.Sequenced

/-- Between two events of an episode the recovery is active and nothing new has
been sent. -/
structure Recovering (r : Seq) (c : Conn) : Prop where
  recoveryUntil : c.congestion.congestionRecoveryUntil = some r
  sndNxt : c.congestion.sndNxt = r
  sndUna : c.congestion.sndUna ≠ r
  fastRetransmitAck : c.congestion.fastRetransmitAck = some c.congestion.sndUna
  isOpen : c.state.isOpen = true

variable {cfg : Settings} {turn : Turn} {c c' c'' : Conn} {seg : VMSegment} {r : Seq}

instance : Decidable (c.FastLoss seg) := inferInstanceAs (Decidable (_ ∧ _))

instance : Decidable (c.Advances seg) := inferInstanceAs (Decidable (¬_ ∧ _))

instance : DecidablePred c.CoversFinOnly := fun _ => inferInstanceAs (Decidable (_ ∧ _))

theorem Recovering.of_congestion (h : Recovering r c) (hcongestion : c'.congestion = c.congestion)
    (hopen : c'.state.isOpen = true) : Recovering r c' := by
  obtain ⟨hrecovery, hnxt, huna, hack, -⟩ := h
  rw [← hcongestion] at hrecovery hnxt huna hack
  exact ⟨hrecovery, hnxt, huna, hack, hopen⟩

theorem Recovering.outstanding (h : Recovering r c) (hs : c.Sending cfg) :
    c.send.retransmission.hasOutstanding = true := by
  have hne : c.send.retransmission.segments ≠ [] := by
    intro hnil
    have hnext := hs.tracked.next
    rw [RetransmissionQueue.items, hnil] at hnext
    exact h.sndUna ((hnext.trans (position_zero _)).symm.trans h.sndNxt)
  simpa [RetransmissionQueue.hasOutstanding] using hne

/-- Between two events of an episode the recovery is active, as the recovery
point lies beyond `sndUna`. -/
theorem Recovering.active (h : Recovering r c) (hs : c.Sending cfg) : c.recoveryActive = true := by
  have hlen := hs.outstanding_le
  have hout := hs.tracked.outstanding (Nat.lt_of_le_of_lt hlen (by omega))
  have hnxt : c.send.retransmission.sndNxt = r := h.sndNxt
  rw [hnxt] at hout
  have hrecovery : c.send.congestionRecoveryUntil = some r := h.recoveryUntil
  have huna : c.send.retransmission.sndUna ≠ r := h.sndUna
  have hnot : seqLessThan r c.send.retransmission.sndUna = false := by
    unfold seqLessThan
    change decide (sequenceDistance r c.send.retransmission.sndUna > 0x7FFFFFFF) = false
    rw [hout]
    exact decide_eq_false (by omega)
  unfold recoveryActive
  rw [hrecovery]
  simp [hnot, huna]

theorem resend_wires (cfg : Settings) (c : Conn) (segment : Segment) :
    c.resend cfg segment = c.emit (c.resendWires cfg segment) := by
  obtain ⟨wires, hwires⟩ := resend_eq cfg c segment
  rw [resendWires, hwires, emit_sent, List.drop_left]

/-- What a retransmission looks like depends on the receiving side and the MSS
alone. -/
theorem sendTCPLoop_wires (cfg : Settings) (mss : Nat) (flags : Flags) (fuel : Nat)
    (htx : c'.tx = c.tx) (hrecv : c'.recv = c.recv) (sequence : Seq) (isFirst : Bool)
    (rest : Bytes) (segments : List SentSegment) :
    ∃ wires,
      (sendTCPLoop cfg mss flags false fuel c sequence isFirst rest segments).1 = c.emit wires ∧
      (sendTCPLoop cfg mss flags false fuel c' sequence isFirst rest segments).1 =
        c'.emit wires := by
  induction fuel generalizing c c' sequence isFirst rest segments with
  | zero => exact ⟨[], by simp [sendTCPLoop], by simp [sendTCPLoop]⟩
  | succ fuel ih =>
      have hwire : ∀ chunk segmentFlags, c'.wire cfg sequence chunk segmentFlags =
          c.wire cfg sequence chunk segmentFlags := by
        intro chunk segmentFlags
        simp only [wire, tcpReceiveWindow, htx, hrecv]
      have hsecond : ∀ chunk segmentFlags,
          (c'.sendChunk cfg sequence chunk segmentFlags false).2 =
            (c.sendChunk cfg sequence chunk segmentFlags false).2 := fun _ _ => rfl
      simp only [sendTCPLoop, sendChunk_resend, hwire, hsecond]
      split
      · exact ⟨_, rfl, rfl⟩
      · obtain ⟨wires, hloop, hloop'⟩ := @ih (c.emit _) (c'.emit _) htx hrecv _ false
          (rest.drop mss) _
        exact ⟨_, hloop.trans (emit_emit _ _ _), hloop'.trans (emit_emit _ _ _)⟩

theorem resendWires_congr (cfg : Settings) (htx : c'.tx = c.tx) (hrecv : c'.recv = c.recv)
    (hmss : c'.send.sendMss = c.send.sendMss) (segment : Segment) :
    c'.resendWires cfg segment = c.resendWires cfg segment := by
  have hsame : c'.tcpMss cfg = c.tcpMss cfg := by rw [tcpMss, tcpMss, hmss]
  obtain ⟨wires, hloop, hloop'⟩ := sendTCPLoop_wires cfg (c.tcpMss cfg) segment.flags
    (segment.payload.length + 1) htx hrecv segment.seq true segment.payload []
  have hc : c.resend cfg segment = c.emit wires := hloop
  have hc' : c'.resend cfg segment = c'.emit wires := by
    rw [← hloop', ← hsame]
    rfl
  rw [resendWires, resendWires, hc, hc', emit_sent, emit_sent, List.drop_left, List.drop_left]

theorem isTCPCongestionRecoveryActive_recovering (h : c.recoveryActive = true) :
    c.isTCPCongestionRecoveryActive = (c, true) := by
  unfold isTCPCongestionRecoveryActive
  rw [if_pos h]

theorem maybeFin_recovering (cfg : Settings) (h : c.recoveryActive = true) :
    c.maybeFin cfg = .ok c := by
  rw [maybeFin_eq]
  unfold maybeSendFin
  split
  · rfl
  · rw [isTCPCongestionRecoveryActive_recovering h]
    simp

/-- One turn of the send loop does nothing during recovery but end. -/
theorem drainStep_recovering (cfg : Settings) (turn : Turn) (h : c.recoveryActive = true)
    (rateLimited : Bool) (cooperativeSegments : Nat) :
    ∃ transportWaiting, c.drainStep cfg turn rateLimited cooperativeSegments =
      .ok ({ c with send := { c.send with sending := false, transportWaiting } }, false) := by
  have hstop : c.stopSending.recoveryActive = true := h
  unfold drainStep
  split
  · exact ⟨c.send.transportWaiting, rfl⟩
  split
  · rw [maybeFin_recovering cfg hstop]
    exact ⟨c.send.transportWaiting, rfl⟩
  split
  · exact ⟨true, rfl⟩
  · rw [isTCPCongestionRecoveryActive_recovering h]
    simp only [if_true, Nat.min_zero]
    exact ⟨c.send.transportWaiting, rfl⟩

theorem drainLoop_recovering (cfg : Settings) (turn : Turn) (h : c.recoveryActive = true)
    (rateLimited : Bool) (fuel cooperativeSegments : Nat) :
    ∃ transportWaiting, drainLoop cfg turn rateLimited (fuel + 1) cooperativeSegments c =
      .ok { c with send := { c.send with sending := false, transportWaiting } } := by
  obtain ⟨transportWaiting, hstep⟩ :=
    drainStep_recovering cfg turn h rateLimited cooperativeSegments
  refine ⟨transportWaiting, ?_⟩
  unfold drainLoop
  rw [hstep]

/-- What the send loop does during recovery: at most it leaves persist mode, and
then it repeats the oldest segment. -/
structure Idles (cfg : Settings) (c c' : Conn) : Prop where
  congestion : c'.congestion = c.congestion
  frame : c'.frame = c.frame
  oldest : c'.send.retransmission.oldest = c.send.retransmission.oldest
  state : c'.state = c.state
  persist : c'.send.retransmission.persist = true →
    c.send.retransmission.persist = true ∨ c.send.vmWindow = 0
  sent : c'.sent = c.sent ∨ c.send.retransmission.persist = true ∧ 0 < c.send.vmWindow ∧
    c'.send.retransmission.persist = false ∧
    ∃ segment, c.send.retransmission.oldest = some segment ∧
      c'.sent = c.sent ++ c.resendWires cfg segment

namespace Idles

theorem refl (c : Conn) : Idles cfg c c := ⟨rfl, rfl, rfl, rfl, .inl, .inl rfl⟩

/-- Two runs of the send loop repeat the oldest segment once at most between
them. -/
theorem trans (h : Idles cfg c c') (h' : Idles cfg c' c'') : Idles cfg c c'' := by
  have hwindow : c'.send.vmWindow = c.send.vmWindow := congrArg Frame.vmWindow h.frame
  refine ⟨h'.congestion.trans h.congestion, h'.frame.trans h.frame, h'.oldest.trans h.oldest,
    h'.state.trans h.state, fun hpersist => ?_, ?_⟩
  · exact (h'.persist hpersist).elim h.persist fun hw => .inr (hwindow.symm.trans hw)
  · rcases h.sent with hsent | ⟨hpersist, hpos, hoff, segment, hold, hsent⟩
    · rcases h'.sent with hsent' | ⟨hpersist', hpos', hoff', segment, hold', hsent'⟩
      · exact .inl (hsent'.trans hsent)
      · have hpos : 0 < c.send.vmWindow := hwindow ▸ hpos'
        have hpersist : c.send.retransmission.persist = true :=
          (h.persist hpersist').resolve_right (Nat.ne_of_gt hpos)
        refine .inr ⟨hpersist, hpos, hoff', segment, h.oldest.symm.trans hold', ?_⟩
        rw [hsent', hsent, resendWires_congr cfg (congrArg Frame.tx h.frame)
          (congrArg Frame.recv h.frame) (congrArg Frame.sendMss h.frame)]
    · have hsame : c''.sent = c'.sent :=
        h'.sent.resolve_right fun hagain => Bool.false_ne_true (hoff.symm.trans hagain.1)
      refine .inr ⟨hpersist, hpos, ?_, segment, hold, hsame.trans hsent⟩
      refine Bool.eq_false_iff.mpr fun hon => ?_
      exact (h'.persist hon).elim (fun hyes => Bool.false_ne_true (hoff.symm.trans hyes))
        fun hw => Nat.ne_of_gt hpos (hwindow.symm.trans hw)

end Idles

/-- The connection after the fields of `setPersist` have been set. -/
theorem switched_idles (cfg : Settings) (c : Conn) {enabled : Bool}
    (h : enabled = true → c.send.vmWindow = 0) :
    Idles cfg c (c.withQueue (c.send.retransmission.switchPersist enabled)).armed := by
  have hq : ∀ q : RetransmissionQueue, q.armTimer.oldest = q.oldest := fun q => by
    simp [RetransmissionQueue.oldest]
  refine ⟨?_, rfl, hq _, rfl, fun hon => .inr (h ?_), .inl rfl⟩
  · simp only [congestion, armed, withQueue, RetransmissionQueue.armTimer_sndUna,
      RetransmissionQueue.armTimer_sndNxt]
    rfl
  · simp only [armed, withQueue_retransmission, RetransmissionQueue.armTimer_persist] at hon
    exact hon

/-- Switching persist mode repeats the head at most, when the mode is left. -/
theorem setPersist_idles (cfg : Settings) (turn : Turn) (hreg : c.registered = true)
    (hout : c.send.retransmission.hasOutstanding = true) :
    Idles cfg c (c.setPersist cfg turn c.wantsPersist) := by
  have hwants : c.wantsPersist = decide (c.send.vmWindow = 0) := by
    rw [wantsPersist, hout, Bool.true_or, Bool.true_or, Bool.and_true]
  have hclosed : c.wantsPersist = true → c.send.vmWindow = 0 := by
    rw [hwants]
    exact of_decide_eq_true
  by_cases hsame : c.send.retransmission.persist = c.wantsPersist
  · rw [setPersist_same cfg turn hsame]
    exact .refl c
  have hswitched := switched_idles cfg c hclosed
  obtain ⟨-, he⟩ | ⟨-, -, -, he⟩ | ⟨segment, hoff, hold, -, -, he⟩ :=
    setPersist_cases cfg turn c c.wantsPersist
  · rw [he]
    exact .refl c
  · rw [he]
    exact hswitched
  · -- Persist mode is left: the oldest segment is repeated before the timer is armed.
    have hopen : 0 < c.send.vmWindow := by
      rw [hwants, decide_eq_false_iff_not] at hoff
      exact Nat.pos_of_ne_zero hoff
    have hon : c.send.retransmission.persist = true := by
      rw [hoff] at hsame
      simpa using hsame
    have hresent : (c.withQueue (c.send.retransmission.switchPersist c.wantsPersist)).onRetransmit
        cfg segment .windowOpen = (c.withQueue (c.send.retransmission.switchPersist
          c.wantsPersist)).emit (c.resendWires cfg segment) := by
      unfold onRetransmit
      rw [if_neg (by simp [hreg])]
      dsimp only
      have hwires : (c.withQueue (c.send.retransmission.switchPersist
          c.wantsPersist)).resendWires cfg segment = c.resendWires cfg segment := by
        refine resendWires_congr cfg ?_ ?_ ?_ segment <;> rfl
      rw [if_neg (by decide), resend_wires, hwires]
    rw [he, hresent]
    refine ⟨hswitched.congestion, hswitched.frame, hswitched.oldest, hswitched.state,
      hswitched.persist, .inr ⟨hon, hopen, ?_, segment, hold, rfl⟩⟩
    simp only [armed, withQueue_retransmission, emit_send, RetransmissionQueue.armTimer_persist]
    exact hoff

/-- The send loop during an episode. -/
theorem drainTCPToVM_idles (h : Recovering r c) (hs : c.Sending cfg) (hreg : c.registered = true)
    (turn : Turn) (rateLimited : Bool) :
    ∃ c', c.drainTCPToVM cfg turn rateLimited = .ok c' ∧ Idles cfg c c' := by
  unfold drainTCPToVM
  generalize hmark : ({ c with send := { c.send with sending := true } } : Conn) = c₁
  have hmarked : Idles cfg c c₁ := by
    rw [← hmark]
    exact ⟨rfl, rfl, rfl, rfl, .inl, .inl rfl⟩
  have hs₁ : c₁.Sending cfg := by
    rw [← hmark]
    exact { hs with }
  have hreg₁ : c₁.registered = true := (congrArg Frame.registered hmarked.frame).trans hreg
  have h₁ := h.of_congestion hmarked.congestion (by rw [hmarked.state]; exact h.isOpen)
  have hswitched := setPersist_idles cfg turn hreg₁ (h₁.outstanding hs₁)
  have hs₂ := (setPersist_evolves turn hs₁ hreg₁ c₁.wantsPersist).sending
  have h₂ := h₁.of_congestion hswitched.congestion (by rw [hswitched.state]; exact h₁.isOpen)
  obtain ⟨transportWaiting, hloop⟩ := drainLoop_recovering cfg turn (h₂.active hs₂) rateLimited
    (c₁.setPersist cfg turn c₁.wantsPersist).send.sendQueueBytes 0
  exact ⟨_, hloop, (hmarked.trans hswitched).trans ⟨rfl, rfl, rfl, rfl, .inl, .inl rfl⟩⟩

theorem trySendToVM_idles (h : Recovering r c) (hs : c.Sending cfg) (hreg : c.registered = true)
    (turn : Turn) : ∃ c', c.trySendToVM cfg turn = .ok c' ∧ Idles cfg c c' := by
  unfold trySendToVM
  split
  · exact ⟨c, rfl, .refl c⟩
  · exact drainTCPToVM_idles h hs hreg turn true

theorem trySendReverseToVM_idles (h : Recovering r c) (hs : c.Sending cfg)
    (hreg : c.registered = true) (turn : Turn) :
    ∃ c', c.trySendReverseToVM cfg turn = .ok c' ∧ Idles cfg c c' := by
  unfold trySendReverseToVM
  split
  · exact ⟨c, rfl, .refl c⟩
  · exact drainTCPToVM_idles h hs hreg turn false

/-- What the handlers have sent when they have noted an acknowledgement. -/
structure NotedRecovering (cfg : Settings) (r : Seq) (c : Conn) (seg : VMSegment) (c' : Conn) :
    Prop where
  recovering : Recovering r c'
  window : c'.send.congestionWindow = c.send.congestionWindow ∧
    c'.send.congestionThreshold = c.send.congestionThreshold
  context : c'.context = c.context
  persist : c'.send.retransmission.persist = c.send.retransmission.persist
  recv : c'.recv = c.recv
  sendMss : c'.send.sendMss = c.send.sendMss
  sent : if 0 < c.ackedItems seg.ackNum ∧ c.Acceptable seg.ackNum then
      ∃ segment, c'.send.retransmission.oldest = some segment ∧
        c'.sent = c.sent ++ c.resendWires cfg segment
    else c'.sent = c.sent

/-- A duplicate acknowledgement during recovery: its number has been repaired,
so it only counts. -/
theorem noteDuplicateAck_recovering (h : Recovering r c) (cfg : Settings) (turn : Turn) :
    ∃ dupAckCount, c.noteDuplicateAck cfg turn c.send.retransmission.sndUna =
      { c with send := { c.send with dupAckCount } } := by
  have hrepaired : c.send.fastRetransmitAck = some c.send.retransmission.sndUna :=
    h.fastRetransmitAck
  unfold noteDuplicateAck
  dsimp only
  split
  · rw [if_neg (not_not_intro hrepaired)]
    exact ⟨0, rfl⟩
  · exact ⟨_, rfl⟩

/-- Below the recovery point an acknowledgement of payload leaves the window and
the recovery. -/
theorem onTCPCongestionAck_below (cfg : Settings) {ackedDataBytes : Nat} {ackNumber : Seq}
    (hrecovery : c.send.congestionRecoveryUntil = some r) (hdata : ackedDataBytes ≠ 0)
    (hbelow : ¬(ackNumber = r ∨ seqLessThan r ackNumber = true)) :
    c.onTCPCongestionAck cfg ackedDataBytes ackNumber = c.retransmitTCPRecoveryHead cfg := by
  unfold onTCPCongestionAck
  rw [if_neg hdata]
  split
  · rename_i recoveryUntil hr
    obtain rfl : recoveryUntil = r := Option.some.inj (hr.symm.trans hrecovery)
    exact if_neg hbelow
  · rename_i hnone
    cases hnone.symm.trans hrecovery

theorem retransmitTCPRecoveryHead_eq (cfg : Settings) {segment : Segment}
    (hold : c.send.retransmission.oldest = some segment) :
    c.retransmitTCPRecoveryHead cfg =
      ({ c with send := { c.send with
        fastRetransmitAck := some c.send.retransmission.sndUna } } : Conn).emit
          (c.resendWires cfg segment) := by
  unfold retransmitTCPRecoveryHead
  rw [hold]
  dsimp only
  rw [resend_wires]
  refine congrArg _ (resendWires_congr cfg ?_ ?_ ?_ segment) <;> rfl

/-- An acknowledgement of payload below the recovery point repeats the new head. -/
theorem noteAdvancedAck_recovering (cfg : Settings) {ackedDataBytes : Nat} {ackNum : Seq}
    {segment : Segment} (hrecovery : c.send.congestionRecoveryUntil = some r)
    (hdata : ackedDataBytes ≠ 0) (hbelow : ¬(ackNum = r ∨ seqLessThan r ackNum = true))
    (hold : c.send.retransmission.oldest = some segment) :
    c.noteAdvancedAck cfg ackedDataBytes ackNum =
      ({ c with send := { c.send with
        dupAckCount := 0
        fastRetransmitAck := some c.send.retransmission.sndUna
        vmLastAck := c.send.retransmission.sndUna } } : Conn).emit (c.resendWires cfg segment) := by
  unfold noteAdvancedAck
  generalize hc₁ : ({ c with send := { c.send with
    dupAckCount := 0
    fastRetransmitAck := none
    vmLastAck := c.send.retransmission.sndUna } } : Conn) = c₁
  have hrecovery₁ : c₁.send.congestionRecoveryUntil = some r := by
    rw [← hc₁]
    exact hrecovery
  have hold₁ : c₁.send.retransmission.oldest = some segment := by
    rw [← hc₁]
    exact hold
  have hwires : c₁.resendWires cfg segment = c.resendWires cfg segment := by
    rw [← hc₁]
    refine resendWires_congr cfg ?_ ?_ ?_ segment <;> rfl
  rw [onTCPCongestionAck_below cfg hrecovery₁ hdata hbelow,
    retransmitTCPRecoveryHead_eq cfg hold₁, hwires, ← hc₁]

/-- The three steps after an acknowledgement that advanced, taken together. -/
theorem Acknowledged.recovering {c₁ : Conn} {ackedDataBytes : Nat} (h : Recovering r c)
    (hack : Acknowledged cfg c c₁ seg.ackNum ackedDataBytes) (hne : seg.ackNum ≠ r)
    (hdata : c.coveredData seg.ackNum ≠ []) :
    NotedRecovering cfg r c seg
      ((c₁.updateTCPWindow seg.seqNum seg.ackNum seg.window.toNat).1.noteAdvancedAck cfg
        ackedDataBytes seg.ackNum) := by
  obtain ⟨vmWindow, windowUpdate, hc₂, -⟩ :=
    updateTCPWindow_eq c₁ seg.seqNum seg.ackNum seg.window
  obtain ⟨segments, hqueue⟩ := hack.queue
  have hrest := hack.rest
  rw [hqueue] at hrest
  have huna : c₁.send.retransmission.sndUna = seg.ackNum := by
    rw [hqueue]
    exact RetransmissionQueue.advanceTo_sndUna _ _ _
  have hnxt : c₁.send.retransmission.sndNxt = r := by
    rw [hqueue]
    exact (RetransmissionQueue.advanceTo_sndNxt _ _ _).trans h.sndNxt
  have htracked : c₁.send.retransmission.WellTracked := hack.sending.tracked
  have hlen : c₁.send.retransmission.items.length ≤ 65538 := hack.sending.outstanding_le
  -- The recovery point is still ahead, so something is outstanding.
  have hdistance := htracked.outstanding (Nat.lt_of_le_of_lt hlen (by omega))
  rw [hnxt, huna] at hdistance
  have hbelow : ¬(seg.ackNum = r ∨ seqLessThan r seg.ackNum = true) := by
    rintro (heq | hless)
    · exact hne heq
    · unfold seqLessThan at hless
      have hfar : sequenceDistance r seg.ackNum > 0x7FFFFFFF := of_decide_eq_true hless
      omega
  obtain ⟨segment, hold⟩ : ∃ segment, c₁.send.retransmission.oldest = some segment := by
    cases hsegments : c₁.send.retransmission.segments with
    | cons segment rest => exact ⟨segment, by simp [RetransmissionQueue.oldest, hsegments]⟩
    | nil =>
        have hnext := htracked.next
        rw [RetransmissionQueue.items, hsegments, huna, hnxt] at hnext
        exact absurd (hnext.trans (position_zero _)).symm hne
  have hbytes : ackedDataBytes ≠ 0 := by
    rw [hack.data]
    exact Nat.ne_of_gt (List.length_pos_iff.mpr hdata)
  have hrecovery : c₁.send.congestionRecoveryUntil = some r := by
    rw [hack.rest]
    exact h.recoveryUntil
  generalize (c₁.updateTCPWindow seg.seqNum seg.ackNum seg.window.toNat).1 = c₂ at hc₂ ⊢
  have hrecovery₂ : c₂.send.congestionRecoveryUntil = some r := by
    rw [hc₂]
    exact hrecovery
  have hold₂ : c₂.send.retransmission.oldest = some segment := by
    rw [hc₂]
    exact hold
  have hfinal := noteAdvancedAck_recovering cfg hrecovery₂ hbytes hbelow hold₂
  have hwires : c₂.resendWires cfg segment = c.resendWires cfg segment := by
    rw [hc₂]
    refine resendWires_congr cfg ?_ ?_ ?_ segment <;> rw [hack.rest]
  rw [hfinal, hwires, hc₂, hack.rest]
  refine ⟨⟨h.recoveryUntil, hnxt, ?_, rfl, h.isOpen⟩, ⟨rfl, rfl⟩, rfl, ?_, rfl, rfl, ?_⟩
  · exact fun heq => hne (huna.symm.trans heq)
  · change c₁.send.retransmission.persist = _
    rw [hqueue]
    exact RetransmissionQueue.advanceTo_persist _ _ _
  · have hcovered : 0 < c.ackedItems seg.ackNum ∧ c.Acceptable seg.ackNum := hack.covered
    rw [if_pos hcovered]
    exact ⟨segment, hold, rfl⟩

/-- The acknowledgement part during an episode, for a number other than the
recovery point. The hypothesis leaves out the acknowledgement of a FIN alone. -/
theorem Live.noteAck_recovering (h : Live cfg c) (hr : Recovering r c) (turn : Turn)
    (hne : seg.ackNum ≠ r)
    (hdata : 0 < c.ackedItems seg.ackNum ∧ c.Acceptable seg.ackNum →
      c.coveredData seg.ackNum ≠ []) :
    ∃ c' status windowChanged, c.noteAck cfg turn seg = .ok (c', status, windowChanged) ∧
      Noted cfg c seg status c' ∧ NotedRecovering cfg r c seg c' := by
  obtain ⟨c', status, windowChanged, hok, hnoted⟩ := h.noteAck turn seg
  refine ⟨c', status, windowChanged, hok, hnoted, ?_⟩
  unfold Conn.noteAck at hok
  obtain ⟨c₁, acked, he, hadv⟩ | ⟨q, status, he, hstatus, hdup, hq, hseg, hpersist, -, hno⟩ :=
    acknowledge_spec h.sending seg.ackNum
  · rw [he] at hok
    dsimp only at hok
    rw [if_neg (by simp), if_pos rfl] at hok
    cases hok
    exact hadv.recovering hr hne (hdata hadv.covered)
  · rw [he] at hok
    dsimp only at hok
    have hqueued : NotedRecovering cfg r c seg (c.withQueue q) := by
      refine ⟨hr.of_congestion ?_ hr.isOpen, ⟨rfl, rfl⟩, rfl, hpersist, rfl, rfl, ?_⟩
      · simp only [congestion, withQueue_retransmission, hq.sndUna, hq.sndNxt]
        rfl
      · rw [if_neg hno]
        rfl
    by_cases hignored : status = .future ∨ status = .stale
    · rw [if_pos hignored] at hok
      cases hok
      exact hqueued
    rw [if_neg hignored, if_neg hstatus] at hok
    obtain ⟨vmWindow, windowUpdate, hc₂, -⟩ :=
      updateTCPWindow_eq (c.withQueue q) seg.seqNum seg.ackNum seg.window
    generalize (c.withQueue q).updateTCPWindow seg.seqNum seg.ackNum seg.window.toNat = result
      at hok hc₂
    obtain ⟨c₂, changed⟩ := result
    dsimp only at hok hc₂
    obtain ⟨hrec, hwindow, hctx, hpersist', hrecv, hmss, hsent⟩ := hqueued
    have hupdated : NotedRecovering cfg r c seg c₂ := by
      rw [hc₂]
      exact ⟨⟨hrec.recoveryUntil, hrec.sndNxt, hrec.sndUna, hrec.fastRetransmitAck, hrec.isOpen⟩,
        hwindow, hctx, hpersist', hrecv, hmss, hsent⟩
    split at hok
    · -- The number a duplicate repeats is `sndUna`, and that has been repaired.
      have hacceptable : c.Acceptable seg.ackNum := by
        rw [← hdup]
        cases status <;> simp_all
      have hzero : c.ackedItems seg.ackNum = 0 :=
        Nat.eq_zero_of_not_pos fun hpos => hno ⟨hpos, hacceptable⟩
      have huna : seg.ackNum = c₂.send.retransmission.sndUna := by
        rw [hc₂, distance_eq_zero.mp hzero]
        exact hq.sndUna.symm
      obtain ⟨dupAckCount, hcounted⟩ :=
        noteDuplicateAck_recovering hupdated.recovering cfg turn
      rw [huna, hcounted] at hok
      cases hok
      obtain ⟨hrec, hwindow, hctx, hpersist', hrecv, hmss, hsent⟩ := hupdated
      exact ⟨⟨hrec.recoveryUntil, hrec.sndNxt, hrec.sndUna, hrec.fastRetransmitAck, hrec.isOpen⟩,
        hwindow, hctx, hpersist', hrecv, hmss, hsent⟩
    · cases hok
      exact hupdated

theorem Recovering.not_bothClosed (h : Recovering r c) (hs : c.Sending cfg) :
    c.bothClosed = false := by
  rw [bothClosed, h.outstanding hs, Bool.not_true, Bool.and_false]

theorem resetDup_idles (cfg : Settings) (c : Conn) (windowChanged : Bool) :
    Idles cfg c (c.resetDup windowChanged) := by
  unfold resetDup
  split
  · exact ⟨rfl, rfl, rfl, rfl, .inl, .inl rfl⟩
  · exact .refl c

theorem Idles.recovering (h : Idles cfg c c') (hr : Recovering r c) : Recovering r c' :=
  hr.of_congestion h.congestion (by rw [h.state]; exact hr.isOpen)

/-- Between acknowledgement and payload `handleTCP` only runs the send loop. -/
theorem proceedTCP_recovering (h : Ready cfg c) (hr : Recovering r c) (turn : Turn)
    (status : AckStatus) (windowChanged : Bool) :
    ∃ c' done, c.proceedTCP cfg turn status windowChanged = .ok (c', done) ∧ Idles cfg c c' := by
  unfold proceedTCP
  split
  · exact ⟨c, true, rfl, .refl c⟩
  split
  · rw [if_neg (Bool.eq_false_iff.mp (hr.not_bothClosed h.sending))]
    have hreset := resetDup_idles cfg c windowChanged
    have hready := h.resetDup windowChanged
    obtain ⟨c', hok, hidles⟩ := trySendToVM_idles (hreset.recovering hr) hready.sending
      hready.registered turn
    rw [hok]
    exact ⟨c', false, rfl, hreset.trans hidles⟩
  · exact ⟨c, false, rfl, .refl c⟩

/-- `handleReverseTCP` may run it twice there. -/
theorem proceedReverseTCP_recovering (h : Ready cfg c) (hr : Recovering r c)
    (hdir : c.direction = .reverse) (turn : Turn) (status : AckStatus) (windowChanged : Bool) :
    ∃ c' done, c.proceedReverseTCP cfg turn status windowChanged = .ok (c', done) ∧
      Idles cfg c c' := by
  unfold proceedReverseTCP
  split
  · exact ⟨c, true, rfl, .refl c⟩
  rw [if_neg fun hboth => Bool.eq_false_iff.mp (hr.not_bothClosed h.sending) hboth.2]
  obtain ⟨c₁, hok, hready₁, hidles⟩ : ∃ c₁, (if status = .advanced then
      c.trySendReverseToVM cfg turn else .ok c) = .ok c₁ ∧ Ready cfg c₁ ∧ Idles cfg c c₁ := by
    split
    · obtain ⟨c₁, hok, hlive, -, -⟩ := h.trySendReverse hdir hr.isOpen turn
      obtain ⟨d, hd, hidles⟩ := trySendReverseToVM_idles hr h.sending h.registered turn
      obtain rfl := Except.ok.inj (hok.symm.trans hd)
      exact ⟨c₁, hok, hlive.toReady, hidles⟩
    · exact ⟨c, rfl, h, .refl c⟩
  rw [hok]
  dsimp only
  split
  · have hreset := resetDup_idles cfg c₁ true
    have hready₂ := hready₁.resetDup true
    obtain ⟨c₂, hok₂, hidles₂⟩ := trySendReverseToVM_idles
      (hreset.recovering (hidles.recovering hr)) hready₂.sending hready₂.registered turn
    rw [hok₂]
    exact ⟨c₂, false, rfl, (hidles.trans hreset).trans hidles₂⟩
  · exact ⟨c₁, false, rfl, hidles⟩

/-- Only acknowledgements are sent: nothing that occupies sequence space. -/
def Acks (c c' : Conn) : Prop :=
  ∃ acks, c'.sent = c.sent ++ acks ∧ ∀ wire ∈ acks, ¬wire.Sequenced

namespace Acks

theorem of_sent (h : c'.sent = c.sent) : Acks c c' := ⟨[], by rw [h, List.append_nil], by simp⟩

theorem trans (h : Acks c c') (h' : Acks c' c'') : Acks c c'' := by
  obtain ⟨acks, hsent, hall⟩ := h
  obtain ⟨acks', hsent', hall'⟩ := h'
  refine ⟨acks ++ acks', by rw [hsent', hsent, List.append_assoc], fun wire hmem => ?_⟩
  exact (List.mem_append.mp hmem).elim (hall wire) (hall' wire)

end Acks

theorem sendTCPAck_acks (cfg : Settings) (c : Conn) : Acks c (c.sendTCPAck cfg) := by
  rw [sendTCPAck_eq]
  refine ⟨_, rfl, fun wire hmem => ?_⟩
  rw [List.mem_singleton.mp hmem]
  exact Nat.lt_irrefl 0

theorem scheduleTCPAck_acks (cfg : Settings) (c : Conn) (segments : Nat) (immediate : Bool) :
    Acks c (c.scheduleTCPAck cfg segments immediate) := by
  unfold scheduleTCPAck
  dsimp only
  split
  · exact sendTCPAck_acks cfg _
  · exact .of_sent rfl

theorem handleTCPPayload_acks (cfg : Settings) (turn : Turn) (c : Conn) (seg : VMSegment) :
    Acks c (c.handleTCPPayload cfg turn seg).1 := by
  unfold handleTCPPayload
  dsimp only
  split
  · exact .of_sent rfl
  split
  · exact scheduleTCPAck_acks cfg _ _ _
  split
  · split
    · exact scheduleTCPAck_acks cfg c 0 true
    · exact scheduleTCPAck_acks cfg _ _ _
  · exact scheduleTCPAck_acks cfg _ 0 true

/-- Payload of the VM is answered by acknowledgements only. -/
theorem handleReverseTCPPayload_acks (cfg : Settings) (turn : Turn) (c : Conn) (seg : VMSegment) :
    Acks c (c.handleReverseTCPPayload cfg turn seg).1 := by
  unfold handleReverseTCPPayload
  dsimp only
  split
  · exact .of_sent rfl
  split
  · exact scheduleTCPAck_acks cfg c 0 true
  generalize (if seqLessThan seg.seqNum c.recv.vmSeq = true then
    seg.payload.drop (seqDiff c.recv.vmSeq seg.seqNum) else seg.payload) = effectivePayload
  generalize (if seqLessThan seg.seqNum c.recv.vmSeq = true then c.recv.vmSeq
    else seg.seqNum) = effectiveSeq
  split
  · exact scheduleTCPAck_acks cfg _ 0 true
  · exact scheduleTCPAck_acks cfg _ _ _

/-- Payload and FIN do not touch the sending side while something is
outstanding. -/
structure OnlyAcks (c c' : Conn) : Prop where
  send : c'.send = c.send
  isOpen : c'.state.isOpen = true
  acks : Acks c c'

theorem handleTCPFin_onlyAcks (cfg : Settings) (hout : c.send.retransmission.hasOutstanding = true)
    (hopen : c.state.isOpen = true) (seg : VMSegment) : OnlyAcks c (c.handleTCPFin cfg seg) := by
  have hack := scheduleTCPAck_passive cfg c 0 true
  have hfin := scheduleTCPAck_passive cfg { c with recv := passFin c.recv } 0 true
  unfold handleTCPFin
  dsimp only
  split
  · exact ⟨rfl, hopen, .of_sent rfl⟩
  split
  · exact ⟨hack.send, by rw [hack.state]; exact hopen, scheduleTCPAck_acks cfg c 0 true⟩
  · rw [if_neg (by simp [hfin.send, hout])]
    exact ⟨hfin.send, rfl, scheduleTCPAck_acks cfg { c with recv := passFin c.recv } 0 true⟩

/-- A FIN of the VM does not end a connection that has something outstanding. -/
theorem handleReverseTCPFin_onlyAcks (cfg : Settings)
    (hout : c.send.retransmission.hasOutstanding = true) (hopen : c.state.isOpen = true)
    (seg : VMSegment) : OnlyAcks c (c.handleReverseTCPFin cfg seg) := by
  have hack := scheduleTCPAck_passive cfg c 0 true
  have hfin := scheduleTCPAck_passive cfg
    { c with state := .closing, recv := Conn.endSink (passFin c.recv) } 0 true
  unfold handleReverseTCPFin
  dsimp only
  split
  · exact ⟨rfl, hopen, .of_sent rfl⟩
  split
  · exact ⟨hack.send, by rw [hack.state]; exact hopen, scheduleTCPAck_acks cfg c 0 true⟩
  · rw [if_neg (by simp [hfin.send, hout])]
    exact ⟨hfin.send, by rw [hfin.state]; rfl, scheduleTCPAck_acks cfg
      { c with state := .closing, recv := Conn.endSink (passFin c.recv) } 0 true⟩

theorem OnlyAcks.after_passive (hp : Passive c c') (hacks : Acks c c') (h : OnlyAcks c' c'') :
    OnlyAcks c c'' := ⟨h.send.trans hp.send, h.isOpen, hacks.trans h.acks⟩

theorem handleTCPData_onlyAcks (cfg : Settings) (turn : Turn)
    (hout : c.send.retransmission.hasOutstanding = true) (hopen : c.state.isOpen = true)
    (seg : VMSegment) : OnlyAcks c (c.handleTCPData cfg turn seg) := by
  obtain ⟨hp, -, -⟩ := handleTCPPayload_spec cfg turn c seg
  have hacks := handleTCPPayload_acks cfg turn c seg
  have hopen' : (c.handleTCPPayload cfg turn seg).1.state.isOpen = true := by
    rw [hp.state]
    exact hopen
  unfold handleTCPData
  dsimp only
  split
  · exact ⟨hp.send, hopen', hacks⟩
  · exact .after_passive hp hacks (handleTCPFin_onlyAcks cfg (by rw [hp.send]; exact hout) hopen' seg)

theorem handleReverseTCPData_onlyAcks (cfg : Settings) (turn : Turn)
    (hout : c.send.retransmission.hasOutstanding = true) (hopen : c.state.isOpen = true)
    (seg : VMSegment) : OnlyAcks c (c.handleReverseTCPData cfg turn seg) := by
  obtain ⟨hp, -, -⟩ := handleReverseTCPPayload_spec cfg turn c seg
  have hacks := handleReverseTCPPayload_acks cfg turn c seg
  have hopen' : (c.handleReverseTCPPayload cfg turn seg).1.state.isOpen = true := by
    rw [hp.state]
    exact hopen
  unfold handleReverseTCPData
  dsimp only
  split
  · exact ⟨hp.send, hopen', hacks⟩
  · exact .after_passive hp hacks
      (handleReverseTCPFin_onlyAcks cfg (by rw [hp.send]; exact hout) hopen' seg)

/-- A segment that is processed during recovery, up to its FIN. -/
structure Processed (cfg : Settings) (r : Seq) (c : Conn) (seg : VMSegment) (c' : Conn) :
    Prop where
  recovering : Recovering r c'
  window : c'.send.congestionWindow = c.send.congestionWindow ∧
    c'.send.congestionThreshold = c.send.congestionThreshold
  sent : ∃ head repair acks, c'.sent = c.sent ++ head ++ repair ++ acks ∧
    (if seg.ack = true ∧ 0 < c.ackedItems seg.ackNum ∧ c.Acceptable seg.ackNum then
      ∃ segment, c'.send.retransmission.oldest = some segment ∧ head = c.resendWires cfg segment
    else head = []) ∧
    (repair = [] ∨ c.send.retransmission.persist = true ∧ 0 < c'.send.vmWindow ∧
      ∃ segment, c'.send.retransmission.oldest = some segment ∧
        repair = c.resendWires cfg segment) ∧
    ∀ wire ∈ acks, ¬wire.Sequenced

theorem hasOutstanding_iff_oldest (q : RetransmissionQueue) :
    q.hasOutstanding = true ↔ q.oldest ≠ none := by
  cases hsegments : q.segments <;>
    simp [RetransmissionQueue.hasOutstanding, RetransmissionQueue.oldest, hsegments]

theorem OnlyAcks.recovering (h : OnlyAcks c c') (hr : Recovering r c) : Recovering r c' :=
  hr.of_congestion (by simp only [congestion, h.send]) h.isOpen

/-- The parts of a handler one after another. Both handlers are an instance of
it. -/
theorem handleParts_recovering (h : Live cfg c) (hr : Recovering r c) (turn : Turn)
    {proceed : Conn → AckStatus → Bool → Outcome (Conn × Bool)} {data : Conn → VMSegment → Conn}
    (hproceed : ∀ c₁ status windowChanged, Ready cfg c₁ → Recovering r c₁ →
      c₁.direction = c.direction →
        ∃ c₂ done, proceed c₁ status windowChanged = .ok (c₂, done) ∧ Idles cfg c₁ c₂)
    (hdata : ∀ c₁ : Conn, c₁.send.retransmission.hasOutstanding = true → c₁.state.isOpen = true →
      OnlyAcks c₁ (data c₁ seg))
    (hne : seg.ack = true → seg.ackNum ≠ r)
    (hcovers : seg.ack = true → 0 < c.ackedItems seg.ackNum ∧ c.Acceptable seg.ackNum →
      c.coveredData seg.ackNum ≠ []) :
    ∃ c', c.handleParts cfg turn proceed data seg = .ok c' ∧ Processed cfg r c seg c' := by
  unfold handleParts
  by_cases hack : seg.ack = true
  swap
  · rw [if_pos (by simpa using hack)]
    have honly := hdata c (hr.outstanding h.sending) hr.isOpen
    obtain ⟨acks, hsent, hacks⟩ := honly.acks
    refine ⟨_, rfl, honly.recovering hr, by rw [honly.send]; exact ⟨rfl, rfl⟩, [], [],
      acks, by simpa using hsent, ?_, .inl rfl, hacks⟩
    rw [if_neg fun hall => hack hall.1]
  rw [if_neg (by simp [hack])]
  obtain ⟨c₁, status, windowChanged, hok, hnoted, hrecovering⟩ :=
    h.noteAck_recovering hr turn (hne hack) (hcovers hack)
  obtain ⟨hrec₁, hwindow, hctx, hpersist, hrecv, hmss, hsent⟩ := hrecovering
  obtain ⟨c₂, done, hok₂, hidles⟩ := hproceed c₁ status windowChanged hnoted.ready hrec₁
    (congrArg Context.direction hctx)
  have hrec₂ := hidles.recovering hrec₁
  have hout₂ : c₂.send.retransmission.hasOutstanding = true := by
    rw [hasOutstanding_iff_oldest, hidles.oldest, ← hasOutstanding_iff_oldest]
    exact hrec₁.outstanding hnoted.ready.sending
  have hwires : ∀ segment, c₁.resendWires cfg segment = c.resendWires cfg segment :=
    resendWires_congr cfg (congrArg Context.tx hctx) hrecv hmss
  have hwindow₂ : c₂.send.congestionWindow = c.send.congestionWindow ∧
      c₂.send.congestionThreshold = c.send.congestionThreshold :=
    ⟨(congrArg Congestion.congestionWindow hidles.congestion).trans hwindow.1,
      (congrArg Congestion.congestionThreshold hidles.congestion).trans hwindow.2⟩
  -- What the acknowledgement and the send loop have sent before the payload is processed.
  obtain ⟨head, hhead, hheads⟩ : ∃ head, c₁.sent = c.sent ++ head ∧
      (if seg.ack = true ∧ 0 < c.ackedItems seg.ackNum ∧ c.Acceptable seg.ackNum then
        ∃ segment, c₂.send.retransmission.oldest = some segment ∧
          head = c.resendWires cfg segment
      else head = []) := by
    split at hsent
    · rename_i hcovered
      obtain ⟨segment, hold, hsent⟩ := hsent
      refine ⟨_, hsent, ?_⟩
      rw [if_pos ⟨hack, hcovered⟩]
      exact ⟨segment, hidles.oldest.trans hold, rfl⟩
    · rename_i hcovered
      refine ⟨[], by rw [hsent, List.append_nil], ?_⟩
      rw [if_neg fun hall => hcovered hall.2]
  obtain ⟨repair, hrepair, hrepairs⟩ : ∃ repair, c₂.sent = c₁.sent ++ repair ∧
      (repair = [] ∨ c.send.retransmission.persist = true ∧ 0 < c₂.send.vmWindow ∧
        ∃ segment, c₂.send.retransmission.oldest = some segment ∧
          repair = c.resendWires cfg segment) := by
    rcases hidles.sent with hsame | ⟨hon, hpos, -, segment, hold, hagain⟩
    · exact ⟨[], by rw [hsame, List.append_nil], .inl rfl⟩
    · have hwindow : c₂.send.vmWindow = c₁.send.vmWindow :=
        congrArg Frame.vmWindow hidles.frame
      exact ⟨_, hagain, .inr ⟨hpersist.symm.trans hon, hwindow ▸ hpos, segment,
        hidles.oldest.trans hold, hwires segment⟩⟩
  rw [hok]
  dsimp only
  rw [hok₂]
  cases done with
  | true =>
      exact ⟨c₂, rfl, hrec₂, hwindow₂, head, repair, [], by rw [hrepair, hhead, List.append_nil],
        hheads, hrepairs, by simp⟩
  | false =>
      have honly := hdata c₂ hout₂ hrec₂.isOpen
      obtain ⟨acks, hsent, hacks⟩ := honly.acks
      refine ⟨_, rfl, honly.recovering hrec₂, ?_, head, repair, acks,
        by rw [hsent, hrepair, hhead], ?_, ?_, hacks⟩
      · rw [honly.send]
        exact hwindow₂
      · rw [honly.send]
        exact hheads
      · rw [honly.send]
        exact hrepairs

/-- A segment that neither resets the connection nor repeats the handshake. -/
theorem Live.onSegment_recovering (h : Live cfg c) (hr : Recovering r c) (turn : Turn)
    (hsyn : c.repeatsHandshake seg = false) (hrst : seg.rst = false)
    (hne : seg.ack = true → seg.ackNum ≠ r)
    (hcovers : seg.ack = true → 0 < c.ackedItems seg.ackNum ∧ c.Acceptable seg.ackNum →
      c.coveredData seg.ackNum ≠ []) :
    ∃ c', c.onSegment cfg turn seg = .ok c' ∧ Processed cfg r c seg c' := by
  unfold repeatsHandshake at hsyn
  unfold onSegment
  cases hdir : c.direction with
  | outbound =>
      rw [hdir] at hsyn
      dsimp only at hsyn ⊢
      rw [handleTCP_eq hr.isOpen hsyn hrst]
      exact handleParts_recovering h hr turn
        (fun c₁ status windowChanged hready hrec _ =>
          proceedTCP_recovering hready hrec turn status windowChanged)
        (fun c₁ hout hopen => handleTCPData_onlyAcks cfg turn hout hopen seg) hne hcovers
  | reverse =>
      rw [hdir] at hsyn
      dsimp only at hsyn ⊢
      rw [handleReverseTCP_eq hr.isOpen hsyn hrst]
      have hbumped : Recovering r { c with idleTimer := true } :=
        hr.of_congestion rfl hr.isOpen
      obtain ⟨c', hok, hrec, hwindow, hsent⟩ :=
        handleParts_recovering (h.withIdleTimer true) hbumped turn
          (fun c₁ status windowChanged hready hrec hdir₁ =>
            proceedReverseTCP_recovering hready hrec (hdir₁.trans hdir) turn status windowChanged)
          (fun c₁ hout hopen => handleReverseTCPData_onlyAcks cfg turn hout hopen seg) hne hcovers
      have hwires : Conn.resendWires cfg { c with idleTimer := true } = c.resendWires cfg := by
        funext segment
        refine resendWires_congr cfg ?_ ?_ ?_ segment <;> rfl
      rw [hwires] at hsent
      exact ⟨c', hok, hrec, hwindow, hsent⟩

theorem close_sndNxt (q : RetransmissionQueue) : q.close.sndNxt = q.sndNxt := by
  unfold RetransmissionQueue.close
  split <;> rfl

theorem abort_keeps (cfg : Settings) (turn : Turn) (c : Conn) (sendReset : Bool) :
    (c.abort cfg turn sendReset).send.retransmission.sndNxt = c.send.retransmission.sndNxt ∧
      (c.abort cfg turn sendReset).send.congestionWindow = c.send.congestionWindow ∧
      (c.abort cfg turn sendReset).send.congestionThreshold = c.send.congestionThreshold := by
  unfold abort abortTCPConnection abortReverseConnection
  dsimp only
  rw [sendTCP_control cfg (.inr rfl), sendTCP_control cfg (.inr rfl)]
  split <;> split
  · exact ⟨rfl, rfl, rfl⟩
  · split <;> exact ⟨close_sndNxt _, rfl, rfl⟩
  · exact ⟨rfl, rfl, rfl⟩
  · split <;> exact ⟨close_sndNxt _, rfl, rfl⟩

/-- What an event that is no segment leaves of an episode. -/
structure Stays (r : Seq) (c : Conn) (event : Event) (c' : Conn) : Prop where
  sndNxt : c'.send.retransmission.sndNxt = r
  window : ¬c.RtoFires event → c'.send.congestionWindow = c.send.congestionWindow ∧
    c'.send.congestionThreshold = c.send.congestionThreshold
  recovering : c'.registered = true → Recovering r c'

theorem Stays.of_congestion {event : Event} (h : Recovering r c)
    (hcongestion : c'.congestion = c.congestion) (hstate : c'.state = c.state) :
    Stays r c event c' :=
  have hrec := h.of_congestion hcongestion (by rw [hstate]; exact h.isOpen)
  ⟨hrec.sndNxt, fun _ => ⟨congrArg Congestion.congestionWindow hcongestion,
    congrArg Congestion.congestionThreshold hcongestion⟩, fun _ => hrec⟩

theorem Stays.of_abort {event : Event} (h : Recovering r c) (cfg : Settings) (turn : Turn)
    (c₁ : Conn) (hcongestion : c₁.congestion = c.congestion) (sendReset : Bool) :
    Stays r c event (c₁.abort cfg turn sendReset) := by
  obtain ⟨hnxt, hwindow, hthreshold⟩ := abort_keeps cfg turn c₁ sendReset
  refine ⟨(hnxt.trans (congrArg Congestion.sndNxt hcongestion)).trans h.sndNxt, fun _ =>
    ⟨hwindow.trans (congrArg Congestion.congestionWindow hcongestion),
      hthreshold.trans (congrArg Congestion.congestionThreshold hcongestion)⟩, fun hreg => ?_⟩
  rw [abort_registered] at hreg
  cases hreg

theorem Stays.of_giveUp {event : Event} (h : Recovering r c) (cfg : Settings) (turn : Turn)
    (c₁ : Conn) (hcongestion : c₁.congestion = c.congestion) :
    Stays r c event (c₁.giveUp cfg turn) := by
  have hkept : (c₁.withQueue { c₁.send.retransmission with exhausted := true }.clearTimer).congestion =
      c₁.congestion := rfl
  exact .of_abort h cfg turn _ (hkept.trans hcongestion) true

theorem Recovering.congestionLoss (h : Recovering r c) (cfg : Settings) (reason : Reason) :
    Recovering r (c.onTCPCongestionLoss cfg reason) := by
  unfold onTCPCongestionLoss
  dsimp only
  split
  · exact h
  · exact ⟨congrArg some h.sndNxt, h.sndNxt, h.sndUna, rfl, h.isOpen⟩

/-- A probe of the oldest segment. -/
theorem onPersistProbe_oldest (cfg : Settings) (turn : Turn) (hreg : c.registered = true)
    (hopen : c.state.isOpen = true) (segment : Segment) :
    ∃ wires result, c.onPersistProbe cfg turn (some segment) = (c.emit wires, result) ∧
      result ≠ .threw := by
  have hclosed : c.state ≠ .closed := by
    intro hs
    rw [hs] at hopen
    cases hopen
  unfold onPersistProbe
  rw [if_neg (by simp [hreg, hclosed])]
  split
  · exact ⟨[], .refused, by rw [emit_nil], by decide⟩
  · obtain ⟨wires, hwires⟩ := sendTCPLoop_resend cfg (c.tcpMss cfg)
      { ack := true, fin := decide (segment.payload.length = 0) && segment.flags.fin }
      ((segment.payload.take 1).length + 1) c segment.seq true (segment.payload.take 1) []
    refine ⟨wires, .returned, ?_, by decide⟩
    dsimp only
    rw [sendTCP]
    exact congrArg (·, ProbeResult.returned) hwires

theorem backOff_ends (q : RetransmissionQueue) :
    q.backOff.sndUna = q.sndUna ∧ q.backOff.sndNxt = q.sndNxt :=
  ⟨RetransmissionQueue.armTimer_sndUna _, RetransmissionQueue.armTimer_sndNxt _⟩

/-- A probe during an episode repeats a byte of the head. -/
theorem probe_recovering (cfg : Settings) (turn : Turn) (hreg : c.registered = true)
    (hopen : c.state.isOpen = true) {segment : Segment}
    (hold : c.send.retransmission.oldest = some segment) :
    (c.probe cfg turn).congestion = c.congestion ∧ (c.probe cfg turn).state = c.state := by
  obtain ⟨wires, result, hprobe, hthrew⟩ := onPersistProbe_oldest cfg turn
    (c := c.withQueue c.send.retransmission.countTimeout) hreg hopen segment
  unfold probe
  rw [hold, hprobe]
  cases result with
  | returned =>
      refine ⟨?_, rfl⟩
      simp only [congestion, withQueue_retransmission, backOff_ends]
      rfl
  | refused =>
      refine ⟨?_, rfl⟩
      simp only [congestion, withQueue_retransmission, backOff_ends]
      rfl
  | threw => exact absurd rfl hthrew

theorem retransmitOldest_recovering (h : Recovering r c) (cfg : Settings)
    (hreg : c.registered = true) (segment : Segment) :
    Recovering r (c.retransmitOldest cfg segment) := by
  have hcounted : Recovering r (c.withQueue { c.send.retransmission.countTimeout with
      segments := RetransmissionQueue.countRetransmission c.send.retransmission.segments }) :=
    h.of_congestion rfl h.isOpen
  have hloss := hcounted.congestionLoss cfg .timeout
  unfold retransmitOldest onRetransmit
  rw [if_neg (by simp [hreg])]
  dsimp only
  rw [if_pos (by decide), resend_wires]
  refine hloss.of_congestion ?_ hloss.isOpen
  simp only [congestion, withQueue_retransmission, backOff_ends]
  rfl

/-- The retransmission timer: it is superseded, gives up, probes or repeats the
head. -/
theorem Live.timer_stays (h : Live cfg c) (hr : Recovering r c) (turn : Turn) (generation : Nat) :
    Stays r c (.retransmissionTimer generation) (c.fireRetransmissionTimer cfg turn generation) := by
  have hs := h.sending
  by_cases hcurrent : generation = c.send.retransmission.timerGeneration
  swap
  · rw [fireRetransmissionTimer_superseded cfg turn (.inl hcurrent)]
    exact .of_congestion hr rfl rfl
  subst hcurrent
  rw [fireRetransmissionTimer_live cfg turn hs.opened hs.live]
  have hstarted : Recovering r (c.timerStarted c.send.retransmission.timerGeneration) :=
    hr.of_congestion rfl hr.isOpen
  obtain ⟨segment, hold⟩ := Option.ne_none_iff_exists'.mp
    ((hasOutstanding_iff_oldest _).mp (hr.outstanding hs))
  unfold onTimeout
  dsimp only
  split
  · split
    · exact .of_giveUp hr cfg turn _ rfl
    · obtain ⟨hcongestion, hstate⟩ := probe_recovering cfg turn
        (c := c.timerStarted c.send.retransmission.timerGeneration) h.registered hr.isOpen hold
      exact .of_congestion hr hcongestion hstate
  · rename_i hpersist
    have hstartedOld : (c.timerStarted
        c.send.retransmission.timerGeneration).send.retransmission.oldest = some segment := hold
    rw [hstartedOld]
    dsimp only
    split
    · exact .of_giveUp hr cfg turn _ rfl
    · have hagain := retransmitOldest_recovering hstarted cfg h.registered segment
      exact ⟨hagain.sndNxt, fun hnot => absurd ⟨rfl, Bool.eq_false_iff.mpr hpersist⟩ hnot,
        fun _ => hagain⟩

/-- A callback that runs the send loop stays within the episode. -/
theorem Recovering.trySend {c₁ : Conn} {event : Event} (h : Recovering r c) (hready : Ready cfg c₁)
    (hcongestion : c₁.congestion = c.congestion) (hstate : c₁.state = c.state)
    (hok : c₁.trySend cfg turn = .ok c') : Stays r c event c' := by
  have h₁ := h.of_congestion hcongestion (by rw [hstate]; exact h.isOpen)
  have hidles : Idles cfg c₁ c' := by
    unfold Conn.trySend at hok
    split at hok
    · obtain ⟨d, hd, hidles⟩ := trySendToVM_idles h₁ hready.sending hready.registered turn
      obtain rfl := Except.ok.inj (hok.symm.trans hd)
      exact hidles
    · obtain ⟨d, hd, hidles⟩ := trySendReverseToVM_idles h₁ hready.sending hready.registered turn
      obtain rfl := Except.ok.inj (hok.symm.trans hd)
      exact hidles
  exact .of_congestion h (hidles.congestion.trans hcongestion) (hidles.state.trans hstate)

theorem Stays.of_passive {event : Event} (h : Recovering r c) (hp : Passive c c') :
    Stays r c event c' := .of_congestion h (by simp only [congestion, hp.send]) hp.state

/-- Every callback that is no segment stays within the episode, or ends the
connection. -/
theorem Live.other_stays {event : Event} (h : Live cfg c) (hr : Recovering r c)
    (hcan : c.CanOccur event) (hother : ∀ seg, event ≠ .segment seg)
    (hok : c.handle cfg turn event = .ok c') : Stays r c event c' := by
  have hready := h.toReady
  cases event with
  | segment seg => exact absurd rfl (hother seg)
  | sourceData data =>
      obtain ⟨idleTimer, hbump⟩ := bumpActivity_eq c
      have hok : (c.bumpActivity.enqueueTCPData cfg data).trySend cfg turn = .ok c' := hok
      rw [hbump] at hok
      have hbumped : Ready cfg { c with idleTimer } := (h.withIdleTimer idleTimer).toReady
      have hqueued := hbumped.enqueue hcan.1 fun hdir => by
        simpa [Improper] using h.proper_of_outbound turn hdir hcan
      exact hr.trySend hqueued rfl rfl hok
  | sourceEnd =>
      have hended : c.send.sourceEnded = false := hcan
      have hclosed := h.sending.notClosed
      obtain ⟨idleTimer, hbump⟩ :=
        bumpActivity_eq { c with send := { c.send with sourceEnded := true } }
      simp only [Conn.handle, onSourceEnd, if_neg hclosed, hbump] at hok
      have hpending := (h.withIdleTimer idleTimer).toReady.endpointEnded true c.send.localClosed
        (by simp [hended, Nat.add_comm]) fun hdir => (h.outbound hdir).1
      exact hr.trySend hpending rfl rfl hok
  | localClose =>
      obtain ⟨hdir, hclosed⟩ : c.direction = .reverse ∧ c.send.localClosed = false := hcan
      have hpending := hready.endpointEnded c.send.sourceEnded true (by simp [hclosed]) fun hd => by
        rw [hdir] at hd
        cases hd
      exact hr.trySend hpending rfl rfl hok
  | endpointError =>
      cases hok
      exact .of_abort hr cfg turn c rfl true
  | sinkDrain =>
      cases hok
      exact .of_passive hr (onTCPReceiveDrain_passive cfg c)
  | sinkEnd =>
      cases hok
      exact .of_passive hr (.withRecv c _)
  | retransmissionTimer generation =>
      cases hok
      exact h.timer_stays hr turn generation
  | pacerTimer =>
      have hfired : Ready cfg { c with send := { c.send with pacer := c.send.pacer.fireTimer } } :=
        hready.of_eq_send { h.sending with pacer := Pacer.fireTimer_timerExact _ } rfl rfl h.timer
          h.stopped
      exact hr.trySend hfired rfl rfl hok
  | ackTimer =>
      cases hok
      exact .of_passive hr (fireAckTimer_passive cfg c)
  | idleTimer =>
      cases hok
      exact .of_abort hr cfg turn { c with idleTimer := false } rfl true
  | removalTimer =>
      cases hok
      exact ⟨hr.sndNxt, fun _ => ⟨rfl, rfl⟩, fun hreg => absurd hreg Bool.false_ne_true⟩
  | rateRetry =>
      have hretried : Ready cfg
          { c with send := { c.send with rateRetries := c.send.rateRetries - 1 } } :=
        hready.of_eq_send { h.sending with } rfl rfl h.timer h.stopped
      exact hr.trySend hretried rfl rfl hok
  | immediate =>
      have hresumed : Ready cfg
          { c with send := { c.send with immediates := c.send.immediates - 1 } } :=
        hready.of_eq_send { h.sending with } rfl rfl h.timer h.stopped
      exact hr.trySend hresumed rfl rfl hok
  | staleResume => exact hr.trySend hready rfl rfl hok
  | transportFlush =>
      cases hok
      exact .of_congestion hr rfl rfl
  | otherTraffic rateLimiter =>
      cases hok
      exact .of_congestion hr rfl rfl

/-- A reset ends the connection; a repeated SYN or SYN-ACK changes nothing. -/
theorem Recovering.onSegment_stays (hr : Recovering r c)
    (hdrop : seg.rst = true ∨ c.repeatsHandshake seg = true)
    (hok : c.onSegment cfg turn seg = .ok c') : Stays r c (.segment seg) c' := by
  have hsynSent := not_synSent_of_isOpen hr.isOpen
  unfold repeatsHandshake at hdrop
  unfold onSegment at hok
  cases hdir : c.direction with
  | outbound =>
      rw [hdir] at hdrop hok
      dsimp only at hdrop hok
      by_cases hsyn : (seg.syn && !seg.ack) = true
      · rw [handleTCP, if_pos hsyn, if_neg hsynSent] at hok
        cases hok
        exact .of_congestion hr rfl rfl
      · rw [handleTCP, if_neg hsyn, if_pos (hdrop.resolve_right hsyn)] at hok
        cases hok
        have habort : Stays r c (.segment seg) (c.abort cfg turn false) :=
          .of_abort hr cfg turn c rfl false
        rwa [abort, hdir] at habort
  | reverse =>
      rw [hdir] at hdrop hok
      dsimp only at hdrop hok
      by_cases hrst : seg.rst = true
      · rw [handleReverseTCP, if_pos hrst] at hok
        cases hok
        have habort : Stays r c (.segment seg) (abort cfg turn { c with idleTimer := true } false) :=
          .of_abort hr cfg turn { c with idleTimer := true } rfl false
        unfold abort at habort
        split at habort
        · rename_i hout
          cases hdir.symm.trans hout
        · exact habort
      · rw [handleReverseTCP, if_neg hrst, if_neg hsynSent,
          if_pos (hdrop.resolve_left hrst)] at hok
        cases hok
        have hp := sendTCPAck_passive cfg ({ c with idleTimer := true } : Conn)
        exact .of_congestion hr (by simp only [congestion, hp.send]) hp.state

/-- The number of a fast-retransmit loss has not been repaired, whereas `sndUna`
has. -/
theorem Recovering.not_fastLoss (h : Recovering r c) (seg : VMSegment) : ¬c.FastLoss seg := by
  rintro ⟨⟨-, -, huna⟩, -, -, hunrepaired, -⟩
  refine hunrepaired ?_
  rw [huna]
  exact h.fastRetransmitAck

/-- What an event of an episode leaves: the episode, or the end of the
connection. -/
theorem Live.episode_step {label : Turn × Event} (h : Live cfg c) (hr : Recovering r c)
    (hstep : EpisodeStep cfg r c label c') (hcovers : ¬Brings c.CoversFinOnly label.2) :
    OneReduction cfg r c label c' ∧ (c'.registered = true → Recovering r c') := by
  obtain ⟨turn, event⟩ := label
  obtain ⟨hne, ⟨-, hcan⟩, hok⟩ := hstep
  dsimp only at hne hcovers hcan hok
  cases event with
  | segment seg =>
      change c.onSegment cfg turn seg = .ok c' at hok
      have hquiet : ∀ seg', Event.segment seg = .segment seg' → ¬c.FastLoss seg' :=
        fun seg' _ => hr.not_fastLoss seg'
      by_cases hdrop : seg.rst = true ∨ c.repeatsHandshake seg = true
      · obtain ⟨hnxt, hwindow, hrec⟩ := hr.onSegment_stays hdrop hok
        refine ⟨⟨hnxt, hquiet, hwindow, ?_⟩, hrec⟩
        rintro seg' hseg ⟨⟨hprocessed, -⟩, -⟩
        cases hseg
        exact absurd (hdrop.imp_right .inl) hprocessed
      rw [not_or] at hdrop
      have hacceptable : 0 < c.ackedItems seg.ackNum → seg.ack = true → c.Acceptable seg.ackNum →
          c.Advances seg := by
        refine fun hpos hack hacc => ⟨?_, hack, hpos⟩
        rintro (hrst | hsyn | ⟨-, hno⟩)
        · exact hdrop.1 hrst
        · exact hdrop.2 hsyn
        · exact hno hacc
      obtain ⟨d, hd, hrec, hwindow, head, repair, acks, hsent, hhead, hrepair, hacks⟩ :=
        h.onSegment_recovering hr turn (Bool.eq_false_iff.mpr hdrop.2)
          (Bool.eq_false_iff.mpr hdrop.1) (fun hack heq => hne ⟨hack, heq⟩)
          fun hack hcovered hnil => hcovers ⟨hacceptable hcovered.1 hack hcovered.2, hnil⟩
      obtain rfl := Except.ok.inj (hok.symm.trans hd)
      refine ⟨⟨hrec.sndNxt, hquiet, fun _ => hwindow, ?_⟩, fun _ => hrec⟩
      rintro seg' hseg ⟨⟨hprocessed, hack, hpos⟩, -⟩
      cases hseg
      have hacc : c.Acceptable seg.ackNum := by
        by_contra hno
        exact hprocessed (.inr (.inr ⟨hack, hno⟩))
      rw [if_pos ⟨hack, hpos, hacc⟩] at hhead
      obtain ⟨segment, hold, rfl⟩ := hhead
      refine ⟨segment, repair, acks, hold, hsent, hrepair.imp_right ?_, hacks⟩
      rintro ⟨hon, hopen, segment', hold', rfl⟩
      obtain rfl := Option.some.inj (hold.symm.trans hold')
      exact ⟨hon, hopen, rfl⟩
  | _ =>
      have hstays := h.other_stays hr hcan (by rintro seg ⟨⟩) hok
      exact ⟨⟨hstays.sndNxt, by rintro seg ⟨⟩, hstays.window, by rintro seg ⟨⟩⟩, hstays.recovering⟩

/-- A loss with payload in flight sets the recovery point to `sndNxt`. -/
theorem onTCPCongestionLoss_opens (cfg : Settings) (reason : Reason)
    (hopen : c.state.isOpen = true) (hflight : c.send.retransmission.payloadBytesInFlight ≠ 0)
    (hbehind : c.send.retransmission.sndUna ≠ c.send.retransmission.sndNxt) :
    Recovering c.send.retransmission.sndNxt (c.onTCPCongestionLoss cfg reason) := by
  unfold onTCPCongestionLoss
  dsimp only
  rw [if_neg hflight]
  exact ⟨rfl, rfl, hbehind, rfl, hopen⟩

theorem armed_congestion (c : Conn) : c.armed.congestion = c.congestion := by
  simp only [congestion, armed, withQueue_retransmission, RetransmissionQueue.armTimer_sndUna,
    RetransmissionQueue.armTimer_sndNxt]
  rfl

/-- `fastRetransmit` with payload in flight repeats the head and opens an
episode. -/
theorem fastRetransmit_recovering (cfg : Settings) (turn : Turn) (hreg : c.registered = true)
    (hopen : c.state.isOpen = true) (hidle : (c.send.retransmission.persist ||
      !c.send.retransmission.hasOutstanding || c.send.retransmission.closed ||
        c.send.retransmission.exhausted) = false)
    (hflight : c.send.retransmission.payloadBytesInFlight ≠ 0)
    (hbehind : c.send.retransmission.sndUna ≠ c.send.retransmission.sndNxt) :
    Recovering c.send.retransmission.sndNxt (c.fastRetransmit cfg turn) := by
  have hout : c.send.retransmission.hasOutstanding = true := by
    simp only [Bool.or_eq_false_iff, Bool.not_eq_false'] at hidle
    exact hidle.1.1.2
  obtain ⟨segment, hold⟩ := Option.ne_none_iff_exists'.mp ((hasOutstanding_iff_oldest _).mp hout)
  rw [fastRetransmit_eq cfg turn c hold hidle]
  generalize hc₁ : c.withQueue { c.send.retransmission with
    currentRtoMs := c.send.retransmission.initialRtoMs }.clearTimer = c₁
  have hcleared : c₁.registered = true ∧ c₁.state.isOpen = true ∧
      c₁.send.retransmission.payloadBytesInFlight ≠ 0 ∧
      c₁.send.retransmission.sndUna ≠ c₁.send.retransmission.sndNxt ∧
      c₁.send.retransmission.sndNxt = c.send.retransmission.sndNxt := by
    rw [← hc₁]
    exact ⟨hreg, hopen, hflight, hbehind, rfl⟩
  obtain ⟨hreg₁, hopen₁, hflight₁, hbehind₁, hnxt⟩ := hcleared
  have hloss := onTCPCongestionLoss_opens cfg .fast hopen₁ hflight₁ hbehind₁
  rw [hnxt] at hloss
  unfold onRetransmit
  rw [if_neg (by simp [hreg₁])]
  dsimp only
  rw [if_pos (by decide), resend_wires]
  exact hloss.of_congestion (armed_congestion _) hloss.isOpen

/-- Payload in flight: the handshake is over. -/
theorem Live.isOpen_of_flight (h : Live cfg c)
    (hflight : c.send.retransmission.payloadBytesInFlight ≠ 0) : c.state.isOpen = true := by
  refine h.isOpen fun hs => hflight ?_
  have hhistory := h.sending.handshake hs
  have hall : (dataOf c.stream.history).length = 0 := by
    rw [hhistory]
    rfl
  rw [State.history, dataOf_append, List.length_append] at hall
  rw [h.sending.tracked.inFlight]
  change (dataOf c.stream.outstanding).length = 0
  omega

theorem Sending.behind_of_flight (h : c.Sending cfg)
    (hflight : c.send.retransmission.payloadBytesInFlight ≠ 0) :
    c.send.retransmission.sndUna ≠ c.send.retransmission.sndNxt := by
  intro heq
  have hout := h.tracked.outstanding (Nat.lt_of_le_of_lt h.outstanding_le (by omega))
  rw [sequenceDistance, distance_eq_zero.mpr heq.symm] at hout
  rw [h.tracked.inFlight, List.eq_nil_of_length_eq_zero hout.symm] at hflight
  exact hflight rfl

theorem updateTCPWindow_withQueue (c : Conn) (q : RetransmissionQueue) (sequence ack : Seq)
    (window : Nat) : (c.withQueue q).updateTCPWindow sequence ack window =
      ((c.updateTCPWindow sequence ack window).1.withQueue q,
        (c.updateTCPWindow sequence ack window).2) := by
  have hold : (c.withQueue q).isOldWindowUpdate sequence ack = c.isOldWindowUpdate sequence ack :=
    rfl
  unfold updateTCPWindow
  rw [hold]
  split <;> rfl

theorem FastLoss.withIdleTimer (h : c.FastLoss seg) (idleTimer : Bool) :
    FastLoss { c with idleTimer } seg := by
  have hupdate : updateTCPWindow { c with idleTimer } seg.seqNum seg.ackNum seg.window.toNat =
      ({ (c.updateTCPWindow seg.seqNum seg.ackNum seg.window.toNat).1 with idleTimer },
        (c.updateTCPWindow seg.seqNum seg.ackNum seg.window.toNat).2) := by
    have hold : isOldWindowUpdate { c with idleTimer } seg.seqNum seg.ackNum =
      c.isOldWindowUpdate seg.seqNum seg.ackNum := rfl
    unfold updateTCPWindow
    rw [hold]
    split <;> rfl
  obtain ⟨hack, hdup, hrest⟩ := h
  refine ⟨hack, ?_, hrest⟩
  rw [hupdate]
  exact hdup

/-- The acknowledgement part for a fast-retransmit loss. -/
theorem Live.noteAck_fastLoss (h : Live cfg c) (hloss : c.FastLoss seg) (turn : Turn) :
    ∃ c', c.noteAck cfg turn seg = .ok (c', .duplicate, false) ∧
      Recovering c.send.retransmission.sndNxt c' := by
  obtain ⟨⟨-, -, huna⟩, hdup, hthird, hunrepaired, hpersist, hclosed, hexhausted, hflight⟩ := hloss
  have hisOpen := h.isOpen_of_flight hflight
  have hzero : c.ackedItems seg.ackNum = 0 := distance_eq_zero.mpr huna
  obtain ⟨c₁, acked, -, hadv⟩ | ⟨q, status, he, -, hstatus, hq, hseg, hqpersist, -, -⟩ :=
    acknowledge_spec h.sending seg.ackNum
  · exact absurd hadv.covered.1 (Nat.not_lt.mpr (Nat.le_of_eq hzero))
  obtain rfl : status = .duplicate := hstatus.mpr (by
    change c.ackedItems seg.ackNum ≤ _
    omega)
  unfold Conn.noteAck
  rw [he]
  dsimp only
  rw [if_neg (by decide), if_neg (by decide), updateTCPWindow_withQueue]
  obtain ⟨vmWindow, windowUpdate, hc₂, -⟩ := updateTCPWindow_eq c seg.seqNum seg.ackNum seg.window
  generalize c.updateTCPWindow seg.seqNum seg.ackNum seg.window.toNat = result at hdup hc₂ ⊢
  obtain ⟨c₂, windowChanged⟩ := result
  dsimp only at hdup hc₂ ⊢
  have hchanged : windowChanged = false := by
    simp only [isDuplicateAck, Bool.and_eq_true, Bool.not_eq_true'] at hdup
    exact hdup.1.1.1.1.2
  have hout : q.hasOutstanding = true := by
    simp only [isDuplicateAck, Bool.and_eq_true] at hdup
    rw [RetransmissionQueue.hasOutstanding, hseg]
    have := hdup.2
    rwa [hc₂] at this
  have hdup' : (c₂.withQueue q).isDuplicateAck seg windowChanged = true := by
    simp only [isDuplicateAck, Bool.and_eq_true] at hdup ⊢
    exact ⟨hdup.1, hout⟩
  rw [if_pos hdup', hchanged]
  refine ⟨_, rfl, ?_⟩
  have hcount : (c₂.withQueue q).send.dupAckCount + 1 = 3 := by
    rw [hc₂]
    exact hthird
  have hunrepaired' : (c₂.withQueue q).send.fastRetransmitAck ≠ some seg.ackNum := by
    rw [hc₂]
    exact hunrepaired
  unfold Conn.noteDuplicateAck
  dsimp only
  rw [if_pos hcount, if_pos hunrepaired']
  have hrec := fastRetransmit_recovering cfg turn (c := { c₂.withQueue q with
    send := { (c₂.withQueue q).send with dupAckCount := (c₂.withQueue q).send.dupAckCount + 1 } })
    (by rw [hc₂]; exact h.registered) (by rw [hc₂]; exact hisOpen)
    (by simp [hqpersist, hpersist, hout, hq.closed, hclosed, hq.exhausted, hexhausted])
    (by simpa [hq.inFlight] using hflight)
    (by
      change q.sndUna ≠ q.sndNxt
      rw [hq.sndUna, hq.sndNxt]
      exact h.sending.behind_of_flight hflight)
  have hnxt : q.sndNxt = c.send.retransmission.sndNxt := hq.sndNxt
  rw [← hnxt]
  exact ⟨hrec.recoveryUntil, hrec.sndNxt, hrec.sndUna, hrec.fastRetransmitAck, hrec.isOpen⟩

/-- A segment without payload and FIN is done once its acknowledgement is. -/
theorem handleData_empty (cfg : Settings) (turn : Turn) (c : Conn) (hpayload : seg.payload = [])
    (hfin : seg.fin = false) : c.handleTCPData cfg turn seg = c ∧
      c.handleReverseTCPData cfg turn seg = c := by
  constructor
  · simp [handleTCPData, handleTCPPayload, handleTCPFin, hpayload, hfin]
  · simp [handleReverseTCPData, handleReverseTCPPayload, handleReverseTCPFin, hpayload, hfin]

/-- A fast-retransmit loss opens an episode with the recovery point `sndNxt`. -/
theorem Live.fastLoss_opens (h : Live cfg c) (hloss : c.FastLoss seg)
    (hok : c.onSegment cfg turn seg = .ok c') :
    Recovering c.send.retransmission.sndNxt c' := by
  obtain ⟨⟨hack, hrst, -⟩, hdup, -, -, -, -, -, hflight⟩ := id hloss
  have hisOpen := h.isOpen_of_flight hflight
  simp only [isDuplicateAck, Bool.and_eq_true, Bool.not_eq_true', List.isEmpty_iff] at hdup
  obtain ⟨⟨⟨⟨⟨-, -⟩, hsyn⟩, hfin⟩, hpayload⟩, -⟩ := hdup
  unfold onSegment at hok
  cases hdir : c.direction with
  | outbound =>
      rw [hdir] at hok
      dsimp only at hok
      obtain ⟨c₁, hnote, hrec⟩ := h.noteAck_fastLoss hloss turn
      rw [handleTCP_eq hisOpen (by simp [hsyn]) hrst, handleParts, if_neg (by simp [hack]), hnote]
        at hok
      cases hok
      rw [(handleData_empty cfg turn c₁ hpayload hfin).1]
      exact hrec
  | reverse =>
      rw [hdir] at hok
      dsimp only at hok
      obtain ⟨c₁, hnote, hrec⟩ :=
        (h.withIdleTimer true).noteAck_fastLoss (hloss.withIdleTimer true) turn
      rw [handleReverseTCP_eq hisOpen (by simp [hsyn]) hrst, handleParts, if_neg (by simp [hack]),
        hnote] at hok
      cases hok
      rw [(handleData_empty cfg turn c₁ hpayload hfin).2]
      exact hrec

/-- One reduction in each episode: along every run from a fast-retransmit loss
on that does not acknowledge the recovery point, if no acknowledgement covers a
FIN alone. -/
theorem run_oneReduction (h : Reachable cfg c) (hloss : c.FastLoss seg)
    (hstep : Step cfg c (turn, .segment seg) c') {labels : List (Turn × Event)}
    (hrun : Run (Restrict (EpisodeStep cfg c.send.retransmission.sndNxt)
      fun d label => ¬Brings d.CoversFinOnly label.2) c' labels c'') :
    c'.send.congestionRecoveryUntil = some c.send.retransmission.sndNxt ∧
      c'.send.retransmission.sndNxt = c.send.retransmission.sndNxt ∧
      Run (fun d label e => EpisodeStep cfg c.send.retransmission.sndNxt d label e ∧
        OneReduction cfg c.send.retransmission.sndNxt d label e) c' labels c'' := by
  have hlive : Live cfg c := (h.inv hstep.1.1).resolve_right fun hover => by
    obtain ⟨-, -, -, -, -, hclosed, -⟩ := hloss
    exact Bool.false_ne_true (hclosed.symm.trans hover.closed)
  have hopens := hlive.fastLoss_opens hloss hstep.2
  refine ⟨hopens.recoveryUntil, hopens.sndNxt, ?_⟩
  have hall := hrun.strengthen (P := OneReduction cfg c.send.retransmission.sndNxt)
    (I := fun d => Inv cfg d ∧ (d.registered = true → Recovering c.send.retransmission.sndNxt d))
    ⟨h.inv.step hstep, fun _ => hopens⟩ fun d label e hinv hlast => by
      have hrec := hinv.2 hlast.2.2.1.1
      have hlive : Live cfg d := (hinv.1 hlast.2.2.1.1).resolve_right fun hover => by
        have hopen := hrec.isOpen
        rw [hover.state] at hopen
        cases hopen
      obtain ⟨hone, hrec'⟩ := hlive.episode_step hrec hlast.2 hlast.1
      exact ⟨hone, hinv.1.step hlast.2.2, hrec'⟩
  exact hall.mono fun _ _ _ hlast => ⟨hlast.1.2, hlast.2⟩

/-- An acknowledgement of the VM without payload, with an open window. -/
def exampleAck (ackNum : Seq) : VMSegment where
  seqNum := 100#32
  ackNum := ackNum
  ack := true
  window := 1000#16
  payload_fits := exampleSynAck.payload_fits

/-- Two bytes are in flight, and the third duplicate acknowledgement repeats the
first. The acknowledgement of that one repeats the second; two more duplicates
do nothing. -/
theorem run_oneReduction_partial :
    ∃ c c' c'' : Conn, c.FastLoss (exampleAck 8#32) ∧
      Step {} c ({}, .segment (exampleAck 8#32)) c' ∧
      Run (fun d label e => EpisodeStep {} 10#32 d label e ∧ OneReduction {} 10#32 d label e) c'
        [({}, .segment (exampleAck 9#32)), ({}, .segment (exampleAck 9#32)),
          ({}, .segment (exampleAck 9#32)), ({}, .segment (exampleAck 9#32))] c'' ∧
      c''.send.congestionRecoveryUntil = some 10#32 := by
  obtain ⟨c, hrun, hc⟩ := exists_run {} exampleOutbound
    [({}, .segment (exampleAck 8#32)), ({}, .sourceData [1]), ({}, .sourceData [2]),
      ({}, .segment (exampleAck 8#32)), ({}, .segment (exampleAck 8#32))]
    (fun c => decide (c.FastLoss (exampleAck 8#32)) &&
      decide (c.send.retransmission.sndNxt = 10#32) &&
      (c.execute {} (fun _ _ => True) [({}, .segment (exampleAck 8#32))]).any fun c' : Conn =>
        (c'.execute {} (fun d (label : Turn × Event) =>
          ¬Brings (fun seg => seg.ack = true ∧ seg.ackNum = 10#32) label.2 ∧
            ¬Brings d.CoversFinOnly label.2)
          [({}, .segment (exampleAck 9#32)), ({}, .segment (exampleAck 9#32)),
            ({}, .segment (exampleAck 9#32)), ({}, .segment (exampleAck 9#32))]).any fun c'' : Conn =>
              decide (c''.send.congestionRecoveryUntil = some 10#32)) (by decide)
  rw [Bool.and_eq_true, Bool.and_eq_true, decide_eq_true_eq, decide_eq_true_eq] at hc
  obtain ⟨⟨hloss, hnxt⟩, hany⟩ := hc
  obtain ⟨c', hfirst, hc'⟩ := exists_run {} c _ _ hany
  obtain ⟨c'', hepisode, hc''⟩ := exists_restricted_run {} _ c' _ _ hc'
  have hstep := Run.single_iff.mp hfirst
  have hone := run_oneReduction ⟨exampleOutbound, opened_exampleOutbound, _, hrun⟩ hloss hstep
    (hepisode.mono fun d label e hlast => ⟨hlast.1.2, by rw [hnxt]; exact hlast.1.1, hlast.2⟩)
  rw [hnxt] at hone
  exact ⟨c, c', c'', hloss, hstep, hone.2.2, of_decide_eq_true hc''⟩

/-- The local client of a forward has closed, and data follows the FIN. Both are
lost: the acknowledgement of the FIN repeats nothing, and three duplicates of it
are a second loss. -/
theorem fin_ack_second_loss :
    ∃ c c' c'' d : Conn, Reachable {} c ∧ c.FastLoss (exampleAck 8#32) ∧
      Step {} c ({}, .segment (exampleAck 8#32)) c' ∧ c.send.retransmission.sndNxt = 10#32 ∧
      Run (EpisodeStep {} 10#32) c'
        [({}, .segment (exampleAck 9#32)), ({}, .segment (exampleAck 9#32)),
          ({}, .segment (exampleAck 9#32))] c'' ∧
      c''.FastLoss (exampleAck 9#32) ∧
      EpisodeStep {} 10#32 c'' ({}, .segment (exampleAck 9#32)) d ∧
      ¬OneReduction {} 10#32 c'' ({}, .segment (exampleAck 9#32)) d := by
  obtain ⟨c, hrun, hc⟩ := exists_run {} exampleReverse
    [({}, .segment exampleSynAck), ({}, .localClose), ({}, .sourceData [1]),
      ({}, .segment (exampleAck 8#32)), ({}, .segment (exampleAck 8#32))]
    (fun c => decide (c.FastLoss (exampleAck 8#32)) &&
      decide (c.send.retransmission.sndNxt = 10#32) &&
      (c.execute {} (fun _ _ => True) [({}, .segment (exampleAck 8#32))]).any fun c' : Conn =>
        (c'.execute {} (fun _ (label : Turn × Event) =>
          ¬Brings (fun seg => seg.ack = true ∧ seg.ackNum = 10#32) label.2)
          [({}, .segment (exampleAck 9#32)), ({}, .segment (exampleAck 9#32)),
            ({}, .segment (exampleAck 9#32))]).any fun c'' : Conn =>
              decide (c''.FastLoss (exampleAck 9#32)) &&
              (c''.execute {} (fun _ (label : Turn × Event) =>
                ¬Brings (fun seg => seg.ack = true ∧ seg.ackNum = 10#32) label.2)
                [({}, .segment (exampleAck 9#32))]).any fun _ => true) (by decide)
  rw [Bool.and_eq_true, Bool.and_eq_true, decide_eq_true_eq, decide_eq_true_eq] at hc
  obtain ⟨⟨hloss, hnxt⟩, hany⟩ := hc
  obtain ⟨c', hfirst, hc'⟩ := exists_run {} c _ _ hany
  obtain ⟨c'', hepisode, hc''⟩ := exists_restricted_run {} _ c' _ _ hc'
  rw [Bool.and_eq_true, decide_eq_true_eq] at hc''
  obtain ⟨hsecond, hlast⟩ := hc''
  obtain ⟨d, hd, -⟩ := exists_restricted_run {} _ c'' _ _ hlast
  exact ⟨c, c', c'', d, ⟨exampleReverse, opened_exampleReverse, _, hrun⟩, hloss,
    Run.single_iff.mp hfirst, hnxt, hepisode, hsecond, Run.single_iff.mp hd,
    fun hone => hone.noSecondLoss _ rfl hsecond⟩

end Conn

end RootlessRelay
