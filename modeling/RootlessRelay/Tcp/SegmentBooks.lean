import RootlessRelay.Tcp.Books

/-!
# Segments of the VM in the books

Acknowledgements, payload and FIN, and the two handlers. In the books an
acknowledgement pays out credit: the congestion window grows by no more than the
payload it covers.

A segment of the VM is the only callback in which credit is paid out and the
window of the VM moves. The handlers are followed in the parts in which they
were modelled, and each part amounts to deeds that a segment may cause; payload
and FIN of the VM amount to none.
-/

namespace RootlessRelay

open SequenceSpace Transition SendStream

namespace Conn

variable {cfg : Settings} {start c c' : Conn} {turn : Turn} {quiet : Nat} {event : Event}
  {due : Ledger → Deed → Prop}

/-- Items are acknowledged, and the windows are set. -/
theorem advance_acts (h : c.Sending cfg) {seg : VMSegment} (hevent : event = .segment seg)
    (hflag : seg.ack = true) {c₁ d : Conn} {acked : Nat}
    (hack : Acknowledged cfg c c₁ seg.ackNum acked)
    (hgrowth : d.send.congestionWindow ≤ max c.send.congestionWindow cfg.TCP_MSS + acked)
    (haccount : d.account = { c₁.account with standing := { c₁.standing with
      window := d.send.vmWindow
      congestion := d.send.congestionWindow } }) :
    Acts cfg (Due start turn quiet event) c d := by
  intro l hkept
  have hstanding := hkept.standing h.opened
  have hstream : l.stream = c.stream := congrArg Standing.stream hstanding
  have hcongestion : l.congestion = c.send.congestionWindow :=
    congrArg Standing.congestion hstanding
  have hopen : l.closed = false := hkept.closed.trans h.opened
  have hmoved : SendStream.Step itemFormat l.stream (.acknowledge (c.ackedItems seg.ackNum))
      c₁.stream := by
    rw [hstream, hack.stream]
    exact .acknowledge c.stream _
  have hfirst : Ledger.Step cfg l
      (.acknowledge (c.ackedItems seg.ackNum) d.send.congestionWindow)
      { l with stream := c₁.stream, congestion := d.send.congestionWindow } := by
    refine .acknowledge hopen ?_ ?_ hmoved
    · rw [hstream]
      exact hack.covered.2
    · rw [hcongestion, hstream, ← hack.data]
      exact hgrowth
  have hnumber : seg.ackNum = position l.isn
      (l.stream.acknowledged.length + c.ackedItems seg.ackNum) := by
    rw [hstream, hkept.isn, ← position_add, ← h.acked]
    exact (position_distance _ _).symm
  refine ⟨{ l with
      stream := c₁.stream, congestion := d.send.congestionWindow, window := d.send.vmWindow },
    ⟨[.acknowledge (c.ackedItems seg.ackNum) d.send.congestionWindow, .advertise d.send.vmWindow],
      .cons ⟨⟨seg, hevent, hflag, hnumber⟩, hfirst⟩
        (.single ⟨⟨seg, hevent⟩, .advertise hopen⟩)⟩, ?_⟩
  have hkept' : c₁.Kept { l with stream := c₁.stream } := by
    have hclosed : c₁.send.retransmission.closed = false := hack.sending.opened
    rw [hack.rest] at hclosed ⊢
    refine ⟨hkept.isn, rfl, hkept.emitted, hkept.rateLimiter, hopen.trans hclosed.symm,
      fun _ => ?_⟩
    change ({ l.toStanding with stream := _ } : Standing) = _
    rw [hstanding]
    rfl
  simp only [account, Account.mk.injEq] at haccount
  obtain ⟨hisn, hemitted, hlimiter, hclosed, hbooks⟩ := haccount
  have henqueued : d.send.enqueued = c₁.send.enqueued :=
    congrArg (fun standing : Standing => standing.stream.enqueued) hbooks
  refine ⟨hkept'.isn.trans hisn.symm, henqueued.symm, ?_,
    hkept'.rateLimiter.trans hlimiter.symm, hkept'.closed.trans hclosed.symm, fun hd => ?_⟩
  · rw [hemitted, hisn]
    exact hkept'.emitted
  · have hc₁ := hkept'.standing (hclosed.symm.trans hd)
    change ({ ({ l with stream := c₁.stream } : Ledger).toStanding with
      window := d.send.vmWindow, congestion := d.send.congestionWindow } : Standing) = _
    rw [hc₁, hbooks]

/-- The congestion window grows by no more than the payload acknowledged. -/
theorem growth_le {mss current acked : Nat} (hle : mss ≤ current) (hpos : acked ≠ 0) :
    max 1 (mss * acked / current) ≤ acked := by
  refine Nat.max_le.mpr ⟨Nat.one_le_iff_ne_zero.mpr hpos, ?_⟩
  exact Nat.div_le_of_le_mul (Nat.mul_le_mul_right acked hle)

/-- An acknowledgement that advanced, with what it repeats in recovery. -/
theorem noteAdvancedAck_acts (h : c.Sending cfg) {seg : VMSegment} (hevent : event = .segment seg)
    (hflag : seg.ack = true) {c₁ : Conn} {acked : Nat}
    (hack : Acknowledged cfg c c₁ seg.ackNum acked) :
    Acts cfg (Due start turn quiet event) c ((c₁.updateTCPWindow seg.seqNum seg.ackNum
      seg.window.toNat).1.noteAdvancedAck cfg acked seg.ackNum) := by
  obtain ⟨vmWindow, windowUpdate, hc₂, -⟩ :=
    updateTCPWindow_eq c₁ seg.seqNum seg.ackNum seg.window
  rw [hc₂]
  have hsame : c₁.send.congestionWindow = c.send.congestionWindow := by rw [hack.rest]
  have hkeep : c₁.send.congestionWindow ≤ max c.send.congestionWindow cfg.TCP_MSS + acked :=
    hsame.trans_le ((Nat.le_max_left _ _).trans (Nat.le_add_right _ _))
  unfold noteAdvancedAck onTCPCongestionAck
  dsimp only
  split
  · exact advance_acts h hevent hflag hack hkeep rfl
  rename_i hpos
  split
  · split
    · exact advance_acts h hevent hflag hack hkeep rfl
    · unfold retransmitTCPRecoveryHead
      split
      · exact advance_acts h hevent hflag hack hkeep rfl
      · rename_i segment hold
        have hnoted : Acts cfg (Due start turn quiet event) c { c₁ with send := { c₁.send with
            vmWindow, windowUpdate
            dupAckCount := 0
            fastRetransmitAck := some c₁.send.retransmission.sndUna
            vmLastAck := c₁.send.retransmission.sndUna } } :=
          advance_acts h hevent hflag hack hkeep rfl
        refine hnoted.trans (resend_acts ?_ ?_ ?_ ?_ (List.mem_of_mem_head? hold))
        · exact hack.sending.opened
        · exact hack.sending.tracked
        · exact hack.sending.acked
        · exact hack.sending.outstanding_le
  · refine advance_acts h hevent hflag hack ?_ rfl
    have hmss := tcpMss_le cfg c₁
    have hincrement := growth_le (Nat.le_max_left (c₁.tcpMss cfg)
      (if c₁.send.congestionWindow = 0 then c₁.tcpMss cfg else c₁.send.congestionWindow)) hpos
    have hcurrent : max (c₁.tcpMss cfg)
        (if c₁.send.congestionWindow = 0 then c₁.tcpMss cfg else c₁.send.congestionWindow) ≤
          max c.send.congestionWindow cfg.TCP_MSS := by
      rw [hsame]
      split <;> omega
    exact (Nat.min_le_right _ _).trans (Nat.add_le_add hcurrent hincrement)

/-- A window update, which the segment must be recent enough for. -/
theorem updateTCPWindow_acts (h : c.Sending cfg) (hevent : ∃ seg, event = .segment seg)
    (seqNum ackNum : Seq) (window : BitVec 16) :
    Acts cfg (Due start turn quiet event) c (c.updateTCPWindow seqNum ackNum window.toNat).1 := by
  obtain ⟨vmWindow, windowUpdate, he, -⟩ := updateTCPWindow_eq c seqNum ackNum window
  rw [he]
  refine .single h.opened fun l hkept hopen hstanding => ⟨.advertise vmWindow,
    { l with window := vmWindow }, hevent, .advertise hopen, hkept.isn, hkept.enqueued,
    hkept.emitted, hkept.rateLimiter, hkept.closed, fun _ => ?_⟩
  change { l.toStanding with window := vmWindow } = _
  rw [hstanding]
  rfl

theorem noteDuplicateAck_acts (h : c.Sending cfg) (hreg : c.registered = true) (ackNum : Seq) :
    Acts cfg (Due start turn quiet event) c (c.noteDuplicateAck cfg turn ackNum) := by
  have hcounted : ({ c with send := { c.send with
      dupAckCount := c.send.dupAckCount + 1 } } : Conn).Sending cfg := { h with }
  have hcount : ∀ (c : Conn) (dupAckCount : Nat), Acts cfg (Due start turn quiet event) c
      { c with send := { c.send with dupAckCount } } := fun _ _ => .of_account rfl
  unfold noteDuplicateAck
  dsimp only
  split
  · split
    · exact ((hcount c _).trans (fastRetransmit_acts hcounted hreg)).trans (hcount _ 0)
    · exact (hcount c _).trans (hcount _ 0)
  · exact hcount c _

/-- The acknowledgement part of a handler, of whichever kind the acknowledgement
is. -/
theorem noteAck_acts (h : Live cfg c) {seg : VMSegment} (hevent : event = .segment seg)
    (hflag : seg.ack = true) {status : AckStatus} {windowChanged : Bool}
    (hok : c.noteAck cfg turn seg = .ok (c', status, windowChanged)) :
    Acts cfg (Due start turn quiet event) c c' := by
  unfold noteAck at hok
  obtain ⟨c₁, acked, he, hadv⟩ | ⟨q, status, he, hne, -, hq, -⟩ :=
    acknowledge_spec h.sending seg.ackNum
  · rw [he] at hok
    dsimp only at hok
    rw [if_neg (by simp), if_pos rfl] at hok
    cases hok
    exact noteAdvancedAck_acts h.sending hevent hflag hadv
  · rw [he] at hok
    dsimp only at hok
    have hcounted : Acts cfg (Due start turn quiet event) c (c.withQueue q) := .withQueue hq
    split at hok
    · cases hok
      exact hcounted
    · have hsending := h.sending.withQueue hq
      have hupdated : Acts cfg (Due start turn quiet event) c _ := hcounted.trans
        (updateTCPWindow_acts hsending ⟨seg, hevent⟩ seg.seqNum seg.ackNum seg.window)
      obtain ⟨vmWindow, windowUpdate, hwindow, hbound, -⟩ :=
        updateTCPWindow_eq (c.withQueue q) seg.seqNum seg.ackNum seg.window
      have hsending₂ : ((c.withQueue q).updateTCPWindow seg.seqNum seg.ackNum
          seg.window.toNat).1.Sending cfg := by
        rw [hwindow]
        exact hsending.withWindow hbound windowUpdate
      have hreg₂ : ((c.withQueue q).updateTCPWindow seg.seqNum seg.ackNum
          seg.window.toNat).1.registered = true := by
        rw [hwindow]
        exact h.registered
      cases hok
      split
      · exact hupdated.trans (noteDuplicateAck_acts hsending₂ hreg₂ seg.ackNum)
      · exact hupdated

theorem handleTCPPayload_acts (c : Conn) (seg : VMSegment) :
    Acts cfg due c (c.handleTCPPayload cfg turn seg).1 := by
  have hreceive : ∀ recv, Acts cfg due c { c with recv } := fun _ => .of_account rfl
  unfold handleTCPPayload forwardTCP
  dsimp only
  split
  · exact .refl c
  split
  · exact (hreceive _).trans (scheduleTCPAck_acts _ _ false)
  split
  · split
    · exact scheduleTCPAck_acts c 0 true
    · exact (hreceive _).trans (scheduleTCPAck_acts _ _ false)
  · exact (hreceive _).trans (scheduleTCPAck_acts _ 0 true)

theorem handleReverseTCPPayload_acts (c : Conn) (seg : VMSegment) :
    Acts cfg due c (c.handleReverseTCPPayload cfg turn seg).1 := by
  rw [handleReverseTCPPayload_eq]
  exact handleTCPPayload_acts c seg

/-- The FIN of the VM, up to the end of the connection. -/
theorem closed_acts (c : Conn) : Acts cfg due c (c.closed cfg) := by
  have hended : Acts cfg due c { c with state := .closing, recv := endSink (passFin c.recv) } :=
    .of_account rfl
  exact hended.trans (scheduleTCPAck_acts _ 0 true)

theorem handleTCPFin_acts (c : Conn) (seg : VMSegment) :
    Acts cfg (Due start turn quiet event) c (c.handleTCPFin cfg seg) := by
  rw [handleTCPFin_eq]
  split
  · exact .refl c
  split
  · exact scheduleTCPAck_acts c 0 true
  split
  · exact (closed_acts c).trans (finishTCPConnection_acts _)
  · exact closed_acts c

theorem handleReverseTCPFin_acts (c : Conn) (seg : VMSegment) :
    Acts cfg (Due start turn quiet event) c (c.handleReverseTCPFin cfg seg) := by
  rw [handleReverseTCPFin_eq]
  split
  · exact .refl c
  split
  · exact scheduleTCPAck_acts c 0 true
  split
  · exact (closed_acts c).trans (finishReverseConnection_acts _)
  · exact closed_acts c

theorem handleTCPData_acts (c : Conn) (seg : VMSegment) :
    Acts cfg (Due start turn quiet event) c (c.handleTCPData cfg turn seg) := by
  unfold handleTCPData
  dsimp only
  split
  · exact handleTCPPayload_acts c seg
  · exact (handleTCPPayload_acts c seg).trans (handleTCPFin_acts _ seg)

theorem handleReverseTCPData_acts (c : Conn) (seg : VMSegment) :
    Acts cfg (Due start turn quiet event) c (c.handleReverseTCPData cfg turn seg) := by
  unfold handleReverseTCPData
  dsimp only
  split
  · exact handleReverseTCPPayload_acts c seg
  · exact (handleReverseTCPPayload_acts c seg).trans (handleReverseTCPFin_acts _ seg)

/-- The established part of `handleTCP`: the send loop, then payload and FIN. -/
theorem handleTCPEstablished_acts (h : Ready cfg c)
    (hstart : start.direction = .outbound) {seg : VMSegment} {progress windowChanged : Bool}
    (hok : c.handleTCPEstablished cfg turn seg progress windowChanged = .ok c') :
    ∃ quiet, Acts cfg (Due start turn quiet event) c c' := by
  unfold handleTCPEstablished at hok
  split at hok
  · cases hok
    exact ⟨0, .refl c⟩
  split at hok
  · cases hok
    exact ⟨0, finishTCPConnection_acts c⟩
  split at hok
  · cases hok
  rename_i c₁ hsend
  cases hok
  cases progress with
  | false =>
      cases hsend
      exact ⟨0, handleTCPData_acts _ seg⟩
  | true =>
      have hreset : Ready cfg (c.resetDup windowChanged) ∧
          ∀ due, Acts cfg due c (c.resetDup windowChanged) := by
        unfold resetDup
        split
        · exact ⟨h.withDup 0, fun _ => .of_account rfl⟩
        · exact ⟨h, fun _ => .refl c⟩
      obtain ⟨hready, hfirst⟩ := hreset
      obtain ⟨quiet, hsent⟩ : ∃ quiet, Acts cfg (Due start turn quiet event) _ c₁ :=
        trySendToVM_acts hready.sending hstart hsend
      exact ⟨quiet, ((hfirst _).trans hsent).trans (handleTCPData_acts c₁ seg)⟩

/-- The same with the end of the handshake in front of it. -/
theorem handleTCPState_acts (h : Ready cfg c) (hdir : c.direction = .outbound)
    (hstart : start.direction = .outbound) {seg : VMSegment} {status : Option AckStatus}
    {windowChanged : Bool} (hok : c.handleTCPState cfg turn seg status windowChanged = .ok c') :
    ∃ quiet, Acts cfg (Due start turn quiet event) c c' := by
  unfold handleTCPState at hok
  dsimp only at hok
  split at hok
  swap
  · exact handleTCPEstablished_acts h hstart hok
  rename_i hs
  split at hok
  · cases hok
    exact ⟨0, .refl c⟩
  · rename_i hdone
    simp only [Bool.or_eq_true, decide_eq_true_eq, not_or, not_not, Bool.not_eq_true] at hdone
    have hopened := h.establish hdir hs hdone.2
    have hp := sendTCPAck_passive cfg { c with state := .established }
    have hfirst : ∀ due, Acts cfg due c { c with state := .established } :=
      fun _ => .of_account rfl
    obtain ⟨quiet, hrest⟩ : ∃ quiet, Acts cfg (Due start turn quiet event) _ c' :=
      handleTCPEstablished_acts (hopened.passive hp) hstart hok
    exact ⟨quiet, ((hfirst _).trans (sendTCPAck_acts _)).trans hrest⟩

/-- `handleTCP` on a live connection amounts to deeds that a segment may cause. -/
theorem handleTCP_acts (h : Live cfg c) (hdir : c.direction = .outbound)
    (hstart : start.direction = .outbound) {seg : VMSegment} (hevent : event = .segment seg)
    (hok : c.handleTCP cfg turn seg = .ok c') :
    ∃ quiet, Acts cfg (Due start turn quiet event) c c' := by
  cases hrst : seg.rst with
  | true =>
      unfold handleTCP at hok
      rw [hrst] at hok
      split at hok
      · cases hok
        split
        · exact ⟨0, fastRetransmit_acts h.sending h.registered⟩
        · exact ⟨0, .refl c⟩
      · cases hok
        exact ⟨0, abortTCPConnection_acts turn c false⟩
  | false =>
      cases hack : seg.ack with
      | false =>
          unfold handleTCP at hok
          rw [hrst, hack] at hok
          split at hok
          · cases hok
            split
            · exact ⟨0, fastRetransmit_acts h.sending h.registered⟩
            · exact ⟨0, .refl c⟩
          · exact handleTCPState_acts h.toReady hdir hstart hok
      | true =>
          rw [handleTCP_noteAck cfg turn c hrst hack] at hok
          obtain ⟨c₁, status, windowChanged, hnote, hnoted⟩ := h.noteAck turn seg
          have hfirst : ∀ quiet, Acts cfg (Due start turn quiet event) c c₁ :=
            fun _ => noteAck_acts h hevent hack hnote
          rw [hnote] at hok
          dsimp only at hok
          split at hok
          · cases hok
            exact ⟨0, hfirst 0⟩
          · obtain ⟨quiet, hrest⟩ : ∃ quiet, Acts cfg (Due start turn quiet event) c₁ c' :=
              handleTCPState_acts hnoted.ready
                ((congrArg Context.direction hnoted.context).trans hdir) hstart hok
            exact ⟨quiet, (hfirst quiet).trans hrest⟩

/-- The SYN-ACK acknowledges the SYN of the relay and nothing else. -/
theorem handleReverseSynAck_acts (h : Live cfg c) (hdir : c.direction = .reverse)
    (hstart : start.direction = .reverse) (hs : c.state = .synSent) {seg : VMSegment}
    (hevent : event = .segment seg) (hflag : seg.ack = true)
    (hok : c.handleReverseSynAck cfg turn seg = .ok c') :
    Acts cfg (Due start turn quiet event) c c' := by
  unfold handleReverseSynAck at hok
  obtain ⟨c₁, acked, he, hadv⟩ | ⟨q, status, he, hne, -, hq, -⟩ :=
    acknowledge_spec h.sending seg.ackNum
  · have hsame : c₁.send.congestionWindow = c.send.congestionWindow := by rw [hadv.rest]
    have hkeep : c₁.send.congestionWindow ≤ max c.send.congestionWindow cfg.TCP_MSS + acked :=
      hsame.trans_le ((Nat.le_max_left _ _).trans (Nat.le_add_right _ _))
    rw [he] at hok
    dsimp only at hok
    split at hok
    · cases hok
      exact advance_acts h.sending hevent hflag hadv hkeep rfl
    · obtain ⟨hready, -⟩ := h.complete hdir hs hadv
      have hp := sendTCPAck_passive cfg (c₁.completed cfg seg)
      have hcompleted : Acts cfg (Due start turn quiet event) c (c₁.completed cfg seg) :=
        advance_acts h.sending hevent hflag hadv hkeep rfl
      exact (hcompleted.trans (sendTCPAck_acts _)).trans
        (trySendReverseToVM_acts (hready.passive hp).sending hstart hok)
  · rw [he] at hok
    dsimp only at hok
    rw [if_pos (.inl hne)] at hok
    cases hok
    exact .withQueue hq

/-- The reverse handler between acknowledgement and payload, with its two runs
of the send loop. -/
theorem proceedReverseTCP_acts (h : Ready cfg c) (hdir : c.direction = .reverse)
    (hstart : start.direction = .reverse) (hopen : c.state.isOpen = true) {status : AckStatus}
    {windowChanged done : Bool}
    (hok : c.proceedReverseTCP cfg turn status windowChanged = .ok (c', done)) :
    Acts cfg (Due start turn quiet event) c c' := by
  unfold proceedReverseTCP at hok
  split at hok
  · cases hok
    exact .refl c
  split at hok
  · cases hok
    exact finishReverseConnection_acts c
  have hnot := not_synSent_of_isOpen hopen
  obtain ⟨c₁, hfirst, hready₁, hacts⟩ : ∃ c₁,
      (if status = .advanced then c.trySendReverseToVM cfg turn else .ok c) = .ok c₁ ∧
        Ready cfg c₁ ∧ Acts cfg (Due start turn quiet event) c c₁ := by
    split
    · obtain ⟨c₁, hsend, hlive, -⟩ := h.trySend turn fun hs => absurd hs hnot
      rw [trySend_reverse hdir] at hsend
      exact ⟨c₁, hsend, hlive.toReady, trySendReverseToVM_acts h.sending hstart hsend⟩
    · exact ⟨c, rfl, h, .refl c⟩
  rw [hfirst] at hok
  dsimp only at hok
  split at hok
  · generalize hsend : (c₁.resetDup true).trySendReverseToVM cfg turn = outcome at hok
    cases outcome with
    | error thrown => cases hok
    | ok c₂ =>
        cases hok
        have hreset : Acts cfg (Due start turn quiet event) c₁ (c₁.resetDup true) := .of_account rfl
        exact (hacts.trans hreset).trans
          (trySendReverseToVM_acts (hready₁.withDup 0).sending hstart hsend)
  · cases hok
    exact hacts

/-- `handleReverseTCP` on a live connection, in the same way. -/
theorem handleReverseTCP_acts (h : Live cfg c) (hdir : c.direction = .reverse)
    (hstart : start.direction = .reverse) {seg : VMSegment} (hevent : event = .segment seg)
    (hok : c.handleReverseTCP cfg turn seg = .ok c') :
    Acts cfg (Due start turn quiet event) c c' := by
  have hbumped : Acts cfg (Due start turn quiet event) c { c with idleTimer := true } :=
    .of_account rfl
  have hlive := h.withIdleTimer true
  by_cases hplain : c.state.isOpen = true ∧ (seg.syn && seg.ack) = false ∧ seg.rst = false
  · obtain ⟨hopen, hsyn, hrst⟩ := hplain
    rw [handleReverseTCP_eq hopen hsyn hrst] at hok
    refine hbumped.trans ?_
    unfold handleParts at hok
    split at hok
    · cases hok
      exact handleReverseTCPData_acts _ seg
    rename_i hflag
    rw [Bool.not_eq_true', Bool.not_eq_false] at hflag
    obtain ⟨c₁, status, windowChanged, hnote, hnoted⟩ := hlive.noteAck turn seg
    have hfirst : Acts cfg (Due start turn quiet event) _ c₁ :=
      noteAck_acts hlive hevent hflag hnote
    rw [hnote] at hok
    dsimp only at hok
    have hdir₁ : c₁.direction = .reverse :=
      (congrArg Context.direction hnoted.context).trans hdir
    have hopen₁ : c₁.state.isOpen = true := by
      rw [hnoted.state]
      exact hopen
    generalize hproceed : c₁.proceedReverseTCP cfg turn status windowChanged = outcome at hok
    rcases outcome with thrown | ⟨c₂, done⟩
    · cases hok
    · have hsecond :=
        hfirst.trans (proceedReverseTCP_acts hnoted.ready hdir₁ hstart hopen₁ hproceed)
      cases done with
      | true =>
          cases hok
          exact hsecond
      | false =>
          cases hok
          exact hsecond.trans (handleReverseTCPData_acts c₂ seg)
  · unfold handleReverseTCP at hok
    dsimp only at hok
    refine hbumped.trans ?_
    split at hok
    · cases hok
      exact abortReverseConnection_acts turn _ false
    rename_i hrst
    split at hok
    · rename_i hs
      split at hok
      · rename_i hsynack
        have hflag : seg.ack = true := (Bool.and_eq_true_iff.mp hsynack).2
        exact handleReverseSynAck_acts hlive hdir hstart hs hevent hflag hok
      · cases hok
        exact .refl _
    rename_i hs
    split at hok
    · cases hok
      exact sendTCPAck_acts _
    rename_i hsyn
    refine absurd ⟨h.isOpen hs, ?_, ?_⟩ hplain
    · exact Bool.eq_false_iff.mpr hsyn
    · exact Bool.eq_false_iff.mpr hrst

end Conn

end RootlessRelay
