import RootlessRelay.Tcp.Sends

/-!
# Acknowledgements are current

Whatever the relay sends acknowledges `vmSeq`. So between two events either the
last segment says how far the VM has been heard, or the delayed acknowledgement
that will say it is pending. A segment that brings nothing new is answered at
once.

Payload that is accepted may be acknowledged later, by a timer or by the segment
that reaches the threshold, and any segment with payload in the other direction
acknowledges as well. The invariant (`AckCurrent`) covers all of these without a
case for each, since every function of the sending side is a `Sends`.
-/

namespace RootlessRelay

open SequenceSpace Transition SendStream

namespace Conn

/-- The acknowledgement number of the last segment the relay has sent. -/
def lastAck (c : Conn) : Option Seq := c.sent.getLast?.map WireSegment.acknowledgment

/-- A delayed acknowledgement is on its way, for fewer segments than force one. -/
structure AckPending (cfg : Settings) (c : Conn) : Prop where
  timer : c.recv.receiveAckTimer = true
  some : 0 < c.recv.receiveAckPendingSegments
  few : c.recv.receiveAckPendingSegments < cfg.ackEverySegments

/-- The VM has been told how far it was heard, or the timer that will tell it is
running. -/
def AckCurrent (cfg : Settings) (c : Conn) : Prop :=
  c.lastAck = some c.recv.vmSeq ∨ c.AckPending cfg

/-- A pure acknowledgement of what has been heard so far, sent since `c`. -/
def AnsweredAtOnce (c c' : Conn) : Prop :=
  ∃ wire ∈ acksSince c c', wire.flags.ack = true ∧ wire.flags.rst = false ∧
    wire.acknowledgment = c'.recv.vmSeq

/-- Everything the segment takes in sequence space lies before `vmSeq`. -/
def HeardBefore (c : Conn) (seg : VMSegment) : Prop :=
  distance c.recv.vmSeq seg.seqNum < 2 ^ 31 ∧
    seg.payload.length + seg.fin.toNat ≤ distance c.recv.vmSeq seg.seqNum

/-- The segment starts beyond `vmSeq`, less than half the sequence space away. -/
def OutOfOrder (c : Conn) (seg : VMSegment) : Prop :=
  0 < distance seg.seqNum c.recv.vmSeq ∧ distance seg.seqNum c.recv.vmSeq < 2 ^ 31

/-- The segment has something to say, and nothing that can be accepted now. -/
structure Unaccepted (c : Conn) (seg : VMSegment) : Prop where
  bears : seg.payload ≠ [] ∨ seg.fin = true
  elsewhere : c.HeardBefore seg ∨ c.OutOfOrder seg

variable {cfg : Settings} {turn : Turn} {c c' c'' : Conn} {seg : VMSegment} {event : Event}

instance : Decidable (c.AckCurrent cfg) :=
  decidable_of_iff (c.lastAck = some c.recv.vmSeq ∨ (c.recv.receiveAckTimer = true ∧
    0 < c.recv.receiveAckPendingSegments ∧
      c.recv.receiveAckPendingSegments < cfg.ackEverySegments))
    (or_congr_right ⟨fun h => ⟨h.1, h.2.1, h.2.2⟩, fun h => ⟨h.timer, h.some, h.few⟩⟩)

instance : Decidable (AnsweredAtOnce c c') := inferInstanceAs (Decidable (∃ wire ∈ _, _))

instance : Decidable (c.HeardBefore seg) := inferInstanceAs (Decidable (_ ∧ _))

instance : Decidable (c.OutOfOrder seg) := inferInstanceAs (Decidable (_ ∧ _))

instance : Decidable (c.Unaccepted seg) :=
  decidable_of_iff ((seg.payload ≠ [] ∨ seg.fin = true) ∧ (c.HeardBefore seg ∨ c.OutOfOrder seg))
    ⟨fun h => ⟨h.1, h.2⟩, fun h => ⟨h.bears, h.elsewhere⟩⟩

instance : Decidable c.Current := inferInstanceAs (Decidable (_ ∧ _))

/-- Sending without hearing anything keeps the acknowledgement current. -/
theorem Sends.ackCurrent {refusals : Nat} (h : Sends cfg refusals c c') (hrecv : c'.recv = c.recv)
    (hc : c.AckCurrent cfg) : c'.AckCurrent cfg := by
  rcases hc with hlast | hpending
  · left
    obtain ⟨wires, hsent, hwires⟩ := h.wires
    rw [lastAck, hsent, hrecv, List.getLast?_append]
    cases hend : wires.getLast? with
    | none => exact hlast
    | some wire =>
        have hack := (hwires wire (List.mem_of_getLast? hend)).2.1
        exact congrArg some hack
  · right
    exact ⟨by rw [hrecv]; exact hpending.timer, by rw [hrecv]; exact hpending.some,
      by rw [hrecv]; exact hpending.few⟩

/-- Nothing has been sent and nothing has been heard. -/
theorem AckCurrent.of_eq (h : c.AckCurrent cfg)
    (hsame : (c'.sent, c'.recv.vmSeq, c'.recv.receiveAckTimer,
      c'.recv.receiveAckPendingSegments) = (c.sent, c.recv.vmSeq, c.recv.receiveAckTimer,
      c.recv.receiveAckPendingSegments)) : c'.AckCurrent cfg := by
  obtain ⟨hsent, hseq, htimer, hcount⟩ : c'.sent = c.sent ∧ c'.recv.vmSeq = c.recv.vmSeq ∧
      c'.recv.receiveAckTimer = c.recv.receiveAckTimer ∧
      c'.recv.receiveAckPendingSegments = c.recv.receiveAckPendingSegments := by
    simpa using hsame
  rcases h with hlast | hpending
  · left
    rw [lastAck, hsent, hseq]
    exact hlast
  · right
    exact ⟨htimer.trans hpending.timer, by rw [hcount]; exact hpending.some,
      by rw [hcount]; exact hpending.few⟩

theorem sendTCPAck_current (cfg : Settings) (c : Conn) : (c.sendTCPAck cfg).AckCurrent cfg := by
  left
  rw [sendTCPAck_eq, lastAck]
  change (c.sent ++ [c.ackSegment cfg]).getLast?.map WireSegment.acknowledgment = _
  rw [List.getLast?_concat]
  rfl

/-- What has just been accepted is acknowledged, at once or later. -/
theorem scheduleTCPAck_current (cfg : Settings) (c : Conn) {segments : Nat} {immediate : Bool}
    (h : 0 < segments ∨ immediate = true) :
    (c.scheduleTCPAck cfg segments immediate).AckCurrent cfg := by
  unfold scheduleTCPAck
  dsimp only
  split
  · exact sendTCPAck_current cfg _
  · rename_i hdelayed
    simp only [Bool.or_eq_true, decide_eq_true_eq, not_or] at hdelayed
    obtain ⟨⟨⟨hnow, -⟩, hfew⟩, -⟩ := hdelayed
    have hsome := h.resolve_right hnow
    exact .inr ⟨rfl, Nat.add_pos_right _ hsome, Nat.lt_of_not_le hfew⟩

theorem fireAckTimer_current (hc : c.AckCurrent cfg) (hopen : c.state ≠ .closed) :
    (c.fireAckTimer cfg).AckCurrent cfg := by
  unfold fireAckTimer
  dsimp only
  split
  · exact sendTCPAck_current cfg _
  · rename_i hnone
    rcases hc with hlast | hpending
    · exact .inl hlast
    · exact absurd ⟨hopen, hpending.some⟩ hnone

theorem onTCPReceiveDrain_current (hc : c.AckCurrent cfg) :
    (c.onTCPReceiveDrain cfg).AckCurrent cfg := by
  unfold onTCPReceiveDrain
  split
  · exact hc
  · exact scheduleTCPAck_current cfg _ (.inr rfl)

theorem handleTCPPayload_current (hc : c.AckCurrent cfg) (turn : Turn) (seg : VMSegment) :
    (c.handleTCPPayload cfg turn seg).1.AckCurrent cfg := by
  unfold handleTCPPayload
  dsimp only
  split
  · exact hc
  split
  · exact scheduleTCPAck_current cfg _ (.inl (Nat.add_pos_left Nat.one_pos _))
  split
  · split
    · exact scheduleTCPAck_current cfg _ (.inr rfl)
    · exact scheduleTCPAck_current cfg _ (.inl (Nat.add_pos_left Nat.one_pos _))
  · exact scheduleTCPAck_current cfg _ (.inr rfl)

theorem handleTCPFin_current (hc : c.AckCurrent cfg) (seg : VMSegment)
    (hcurrent : (c.handleTCPFin cfg seg).Current) : (c.handleTCPFin cfg seg).AckCurrent cfg := by
  rw [handleTCPFin_eq] at hcurrent ⊢
  split
  · exact hc
  split
  · exact scheduleTCPAck_current cfg _ (.inr rfl)
  rename_i hfin hplace
  rw [if_neg hfin, if_neg hplace] at hcurrent
  split
  · rename_i hdone
    rw [if_pos hdone] at hcurrent
    exact absurd hcurrent (finishTCPConnection_not_current _)
  · exact scheduleTCPAck_current cfg _ (.inr rfl)

/-- A FIN of the VM is acknowledged at once, or it is the end of the connection. -/
theorem handleReverseTCPFin_current (hc : c.AckCurrent cfg) (seg : VMSegment)
    (hcurrent : (c.handleReverseTCPFin cfg seg).Current) :
    (c.handleReverseTCPFin cfg seg).AckCurrent cfg := by
  rw [handleReverseTCPFin_eq] at hcurrent ⊢
  split
  · exact hc
  split
  · exact scheduleTCPAck_current cfg _ (.inr rfl)
  rename_i hfin hplace
  rw [if_neg hfin, if_neg hplace] at hcurrent
  split
  · rename_i hdone
    rw [if_pos hdone] at hcurrent
    exact absurd hcurrent (finishReverseConnection_not_current _)
  · exact scheduleTCPAck_current cfg _ (.inr rfl)

theorem handleTCPData_current (hc : c.AckCurrent cfg) (turn : Turn) (seg : VMSegment)
    (hcurrent : (c.handleTCPData cfg turn seg).Current) :
    (c.handleTCPData cfg turn seg).AckCurrent cfg := by
  have hpaid := handleTCPPayload_current hc turn seg
  unfold handleTCPData at hcurrent ⊢
  dsimp only at hcurrent ⊢
  split
  · exact hpaid
  · rename_i hgoes
    rw [if_neg hgoes] at hcurrent
    exact handleTCPFin_current hpaid seg hcurrent

theorem handleReverseTCPData_current (hc : c.AckCurrent cfg) (turn : Turn) (seg : VMSegment)
    (hcurrent : (c.handleReverseTCPData cfg turn seg).Current) :
    (c.handleReverseTCPData cfg turn seg).AckCurrent cfg := by
  have hpaid := handleTCPPayload_current hc turn seg
  unfold handleReverseTCPData at hcurrent ⊢
  rw [handleReverseTCPPayload_eq] at hcurrent ⊢
  dsimp only at hcurrent ⊢
  split
  · exact hpaid
  · rename_i hgoes
    rw [if_neg hgoes] at hcurrent
    exact handleReverseTCPFin_current hpaid seg hcurrent

/-- What the handlers make of the number of such a segment: it is not next, and
none of it is new. -/
theorem Unaccepted.number (h : c.Unaccepted seg) :
    seg.seqNum ≠ c.recv.vmSeq ∧
      (seqLessThan seg.seqNum c.recv.vmSeq = true →
        seqDiff c.recv.vmSeq seg.seqNum ≥ seg.payload.length) := by
  have hsome : 0 < seg.payload.length + seg.fin.toNat := by
    rcases h.bears with hpayload | hfin
    · exact Nat.add_pos_left (List.length_pos_of_ne_nil hpayload) _
    · rw [hfin]
      exact Nat.add_pos_right _ Nat.one_pos
  rcases h.elsewhere with ⟨hhalf, hbefore⟩ | ⟨hahead, hhalf⟩
  · have hne : seg.seqNum ≠ c.recv.vmSeq := fun he => by
      rw [he, distance_self] at hbefore
      omega
    refine ⟨hne, fun _ => ?_⟩
    unfold seqDiff
    unfold distance at hhalf hbefore
    rw [if_neg (by omega)]
    omega
  · refine ⟨fun he => (Nat.ne_of_gt hahead) (distance_eq_zero.mpr he), fun hless => ?_⟩
    unfold distance at hhalf
    simp only [seqLessThan, decide_eq_true_eq] at hless
    omega

/-- What brings nothing new is answered where the payload or the FIN is looked
at. -/
theorem Unaccepted.handleData (h : c.Unaccepted seg) (cfg : Settings) (turn : Turn) :
    ∃ recv : ReceiveSide, recv.vmSeq = c.recv.vmSeq ∧
      c.handleData cfg turn seg = ({ c with recv } : Conn).sendTCPAck cfg := by
  obtain ⟨hne, hold⟩ := h.number
  by_cases hpayload : seg.payload.length = 0
  · -- a FIN out of its place
    have hfin : seg.fin = true :=
      h.bears.resolve_left fun hne => hne (List.length_eq_zero_iff.mp hpayload)
    have hplace : seg.seqNum + BitVec.ofNat 32 seg.payload.length ≠ c.recv.vmSeq := by
      rw [hpayload]
      simpa using hne
    have hnone : c.handleTCPPayload cfg turn seg = (c, false) := by
      rw [handleTCPPayload]
      dsimp only
      rw [if_pos hpayload]
    refine ⟨c.recv, rfl, ?_⟩
    unfold Conn.handleData
    split
    · rw [handleTCPData, hnone]
      dsimp only
      rw [if_neg Bool.false_ne_true, handleTCPFin_eq, if_neg (by simp [hfin]), if_pos hplace,
        scheduleTCPAck_now]
    · rw [handleReverseTCPData, handleReverseTCPPayload_eq, hnone]
      dsimp only
      rw [if_neg Bool.false_ne_true, handleReverseTCPFin_eq, if_neg (by simp [hfin]),
        if_pos hplace, scheduleTCPAck_now]
  · -- the handler returns at the payload
    obtain ⟨recv, hseq, hanswer⟩ : ∃ recv : ReceiveSide, recv.vmSeq = c.recv.vmSeq ∧
        c.handleTCPPayload cfg turn seg = (({ c with recv } : Conn).sendTCPAck cfg, true) := by
      unfold handleTCPPayload
      dsimp only
      rw [if_neg hpayload, if_neg hne]
      split
      · rename_i hless
        rw [if_pos (hold hless), scheduleTCPAck_now]
        exact ⟨c.recv, rfl, rfl⟩
      · rw [scheduleTCPAck_now]
        exact ⟨_, bufferReceived_vmSeq cfg c.recv _ _, rfl⟩
    refine ⟨recv, hseq, ?_⟩
    unfold Conn.handleData
    split
    · rw [handleTCPData, hanswer]
      rfl
    · rw [handleReverseTCPData, handleReverseTCPPayload_eq, hanswer]
      rfl

/-- The answer is among what has been sent since `c`. -/
theorem sendTCPAck_answers (hsent : ∃ wires, c'.sent = c.sent ++ wires) :
    AnsweredAtOnce c (c'.sendTCPAck cfg) := by
  obtain ⟨wires, hwires⟩ := hsent
  have hacks : acksSince c (c'.sendTCPAck cfg) =
      acksSince c c' ++ [c'.ackSegment cfg].filter fun wire => ¬wire.Sequenced :=
    acksSince_append hwires (by rw [sendTCPAck_eq]; rfl)
  refine ⟨c'.ackSegment cfg, ?_, rfl, rfl, by rw [sendTCPAck_eq]; rfl⟩
  rw [hacks]
  exact List.mem_append_right _ (List.mem_cons_self)

/-- A segment that is not ignored for its acknowledgement number and has nothing
that can be accepted now is answered before its handler returns. The handler of
an outbound connection does not look at a SYN without ACK. -/
theorem Live.segment_answered (h : Live cfg c) (hopen : c.state.isOpen = true)
    (hnew : c.Unaccepted seg) (hanswers : c.Answers seg)
    (hsyn : c.direction = .outbound → (seg.syn && !seg.ack) = false)
    (hok : c.onSegment cfg turn seg = .ok c') (hcurrent : c'.Current) : AnsweredAtOnce c c' := by
  obtain hgone | ⟨hdir, hrepeated, -⟩ | ⟨-, -, rfl⟩ | ⟨c₁, done, rfl, hproceeded⟩ :=
    h.onSegment_cases hopen hok
  · exact absurd hcurrent hgone
  · exact absurd ((hsyn hdir).symm.trans hrepeated) Bool.false_ne_true
  · exact sendTCPAck_answers ⟨[], (List.append_nil _).symm⟩
  obtain ⟨rfl, hgone, -⟩ | ⟨-, hrecv, -, -, hdone, -⟩ := hproceeded.outcome
  · exact absurd hcurrent hgone
  obtain rfl := hdone.mpr hanswers
  obtain ⟨wires, hsent, -⟩ := hproceeded.sent
  have hnew₁ : c₁.Unaccepted seg := by
    refine ⟨hnew.bears, ?_⟩
    unfold HeardBefore OutOfOrder
    rw [hrecv]
    exact hnew.elsewhere
  obtain ⟨recv, -, hdata⟩ := hnew₁.handleData cfg turn
  rw [if_neg Bool.false_ne_true, hdata]
  exact sendTCPAck_answers ⟨wires, hsent⟩

/-- What `handleTCP` does between acknowledgement and payload hears nothing. -/
theorem proceedTCP_sends {status : AckStatus} {windowChanged done : Bool}
    (h : c.proceedTCP cfg turn status windowChanged = .ok (c', done)) :
    ∃ refusals, Sends cfg refusals c c' := by
  unfold proceedTCP at h
  split at h
  · cases h
    exact ⟨0, .refl c⟩
  split at h
  · split at h
    · cases h
      exact ⟨0, finishTCPConnection_sends cfg c⟩
    · cases hsend : (c.resetDup windowChanged).trySendToVM cfg turn with
      | error thrown =>
          rw [hsend] at h
          cases h
      | ok c₁ =>
          rw [hsend] at h
          cases h
          exact ⟨_, (resetDup_sends cfg c windowChanged).after (trySendToVM_sends hsend)⟩
  · cases h
    exact ⟨0, .refl c⟩

/-- Nor does that part of `handleReverseTCP`. -/
theorem proceedReverseTCP_sends {status : AckStatus} {windowChanged done : Bool}
    (h : c.proceedReverseTCP cfg turn status windowChanged = .ok (c', done)) :
    ∃ refusals, Sends cfg refusals c c' := by
  unfold proceedReverseTCP at h
  split at h
  · cases h
    exact ⟨0, .refl c⟩
  split at h
  · cases h
    exact ⟨0, finishReverseConnection_sends cfg c⟩
  split at h
  · cases h
  rename_i c₁ hfirst
  have hsent : Sends cfg 0 c c₁ := by
    split at hfirst
    · exact trySendReverseToVM_sends hfirst
    · cases hfirst
      exact .refl c
  split at h
  · cases hsend : (c₁.resetDup true).trySendReverseToVM cfg turn with
    | error thrown =>
        rw [hsend] at h
        cases h
    | ok c₂ =>
        rw [hsend] at h
        cases h
        exact ⟨0, hsent.andThen ((resetDup_sends cfg c₁ true).andThen
          (trySendReverseToVM_sends hsend))⟩
  · cases h
    exact ⟨0, hsent⟩

/-- The parts of a handler on an open connection. -/
theorem handleParts_current (h : Live cfg c) (hc : c.AckCurrent cfg)
    {proceed : Conn → AckStatus → Bool → Outcome (Conn × Bool)} {data : Conn → VMSegment → Conn}
    (hproceed : seg.ack = true → ∀ c₁ status windowChanged, Noted cfg c seg status c₁ →
      ∃ c₂ done, proceed c₁ status windowChanged = .ok (c₂, done) ∧ Proceeded cfg c seg c₂ done)
    (hsends : ∀ c₁ status windowChanged c₂ done,
      proceed c₁ status windowChanged = .ok (c₂, done) → ∃ refusals, Sends cfg refusals c₁ c₂)
    (hdata : ∀ c₁ : Conn, c₁.AckCurrent cfg → (data c₁ seg).Current →
      (data c₁ seg).AckCurrent cfg)
    (hok : c.handleParts cfg turn proceed data seg = .ok c') (hcurrent : c'.Current) :
    c'.AckCurrent cfg := by
  unfold handleParts at hok
  by_cases hack : seg.ack = true
  swap
  · rw [if_pos (by simpa using hack)] at hok
    cases hok
    exact hdata c hc hcurrent
  rw [if_neg (by simp [hack])] at hok
  obtain ⟨c₁, status, windowChanged, hnote, hnoted⟩ := h.noteAck turn seg
  obtain ⟨c₂, done, hgoes, hproceeded⟩ := hproceed hack c₁ status windowChanged hnoted
  rw [hnote] at hok
  dsimp only at hok
  rw [hgoes] at hok
  obtain ⟨refusals, hsent⟩ := hsends c₁ status windowChanged c₂ done hgoes
  obtain ⟨rfl, hgone, -⟩ | ⟨-, hrecv, -⟩ := hproceeded.outcome
  · cases hok
    exact absurd hcurrent hgone
  have hc₂ : c₂.AckCurrent cfg := ((noteAck_sends hnote).after hsent).ackCurrent hrecv hc
  cases done with
  | true =>
      cases hok
      exact hc₂
  | false =>
      cases hok
      exact hdata c₂ hc₂ hcurrent

/-- The established part of `handleTCP`: what it accepts is acknowledged, at
once or later. -/
theorem handleTCPEstablished_current (h : Ready cfg c) (hdir : c.direction = .outbound)
    (hopen : c.state.isOpen = true) (hc : c.AckCurrent cfg) {progress windowChanged : Bool}
    (hok : c.handleTCPEstablished cfg turn seg progress windowChanged = .ok c')
    (hcurrent : c'.Current) : c'.AckCurrent cfg := by
  unfold handleTCPEstablished at hok
  rw [if_neg (by simp [hopen])] at hok
  split at hok
  · cases hok
    exact absurd hcurrent (finishTCPConnection_not_current c)
  cases progress with
  | false =>
      cases hok
      exact handleTCPData_current hc turn seg hcurrent
  | true =>
      rw [if_pos rfl] at hok
      have hev₁ := resetDup_evolves h.sending windowChanged
      obtain ⟨c₁, hsend, -, hev, -⟩ := (h.resetDup windowChanged).trySend turn fun hs =>
        absurd hs (not_synSent_of_isOpen (hev₁.isOpen hopen))
      rw [trySend_outbound (hev₁.direction.trans hdir)] at hsend
      have hsent := (resetDup_sends cfg c windowChanged).after (trySendToVM_sends hsend)
      have hc₁ := hsent.ackCurrent (hev₁.trans hev).recv hc
      unfold resetDup at hsend
      rw [hsend] at hok
      cases hok
      exact handleTCPData_current hc₁ turn seg hcurrent

/-- The SYN-ACK of the relay is acknowledged, or not; the numbers of the VM do
not move. -/
theorem Live.handshake_current (h : Live cfg c) (hdir : c.direction = .outbound)
    (hs : c.state = .synSent) (hc : c.AckCurrent cfg) (hsyn : (seg.syn && !seg.ack) = false)
    (hrst : seg.rst = false) (hok : c.handleTCP cfg turn seg = .ok c')
    (hcurrent : c'.Current) : c'.AckCurrent cfg := by
  by_cases hack : seg.ack = true
  swap
  · unfold handleTCP handleTCPState at hok
    rw [if_neg (by simp [hsyn]), if_neg (by simp [hrst]), if_pos (by simpa using hack)] at hok
    dsimp only at hok
    rw [if_pos hs, if_pos (by simp)] at hok
    cases hok
    exact hc
  rw [handleTCP_noteAck cfg turn c hrst hack] at hok
  obtain ⟨c₁, status, windowChanged, hnote, hnoted⟩ := h.noteAck turn seg
  rw [hnote] at hok
  dsimp only at hok
  have hc₁ := (noteAck_sends hnote).ackCurrent hnoted.recv hc
  have hdir₁ : c₁.direction = .outbound := (congrArg Context.direction hnoted.context).trans hdir
  have hs₁ : c₁.state = .synSent := hnoted.state.trans hs
  split at hok
  · cases hok
    exact hc₁
  unfold handleTCPState at hok
  dsimp only at hok
  rw [if_pos hs₁] at hok
  split at hok
  · cases hok
    exact hc₁
  rename_i hdone
  have hout : c₁.send.retransmission.hasOutstanding = false := by
    rw [Bool.or_eq_true, not_or] at hdone
    exact Bool.eq_false_iff.mpr hdone.2
  have hp := sendTCPAck_passive cfg { c₁ with state := .established }
  have hready := (hnoted.ready.establish hdir₁ hs₁ hout).passive hp
  exact handleTCPEstablished_current hready (hp.direction.trans hdir₁) (by rw [hp.state]; rfl)
    (sendTCPAck_current cfg _) hok hcurrent

/-- The SYN-ACK of the VM is acknowledged at once. -/
theorem Live.reverseHandshake_current (h : Live cfg c) (hdir : c.direction = .reverse)
    (hs : c.state = .synSent) (hc : c.AckCurrent cfg)
    (hok : c.handleReverseSynAck cfg turn seg = .ok c') : c'.AckCurrent cfg := by
  unfold handleReverseSynAck at hok
  obtain ⟨c₁, acked, he, hadv⟩ | ⟨q, status, he, hne, -⟩ := acknowledge_spec h.sending seg.ackNum
  · obtain ⟨-, hout⟩ := hadv.handshake h.sending hs
    rw [he] at hok
    dsimp only at hok
    rw [if_neg (by simp [hout])] at hok
    obtain ⟨hready, -, hctx⟩ := h.complete hdir hs hadv
    have hp := sendTCPAck_passive cfg (c₁.completed cfg seg)
    have hdir₂ := hp.direction.trans ((congrArg Context.direction hctx).trans hdir)
    obtain ⟨c₂, hsend, -, hev, -⟩ := (hready.passive hp).trySend turn fun hsyn => by
      rw [hp.state] at hsyn
      cases hsyn
    rw [trySend_reverse hdir₂] at hsend
    obtain rfl : c₂ = c' := Except.ok.inj (hsend.symm.trans hok)
    exact (trySendReverseToVM_sends hsend).ackCurrent hev.recv (sendTCPAck_current cfg _)
  · have hframe := acknowledge_frame he
    have hc₁ := (acknowledge_sends he).ackCurrent hframe.2.1 hc
    rw [he] at hok
    dsimp only at hok
    rw [if_pos (.inl hne)] at hok
    cases hok
    exact hc₁

/-- A segment of the VM leaves the acknowledgement current, on a connection that
goes on. -/
theorem Live.segment_current (h : Live cfg c) (hc : c.AckCurrent cfg)
    (hok : c.onSegment cfg turn seg = .ok c') (hcurrent : c'.Current) : c'.AckCurrent cfg := by
  unfold onSegment at hok
  cases hdir : c.direction with
  | outbound =>
      rw [hdir] at hok
      dsimp only at hok
      by_cases hsyn : (seg.syn && !seg.ack) = true
      · rw [handleTCP, if_pos hsyn] at hok
        cases hok
        split
        · exact (fastRetransmit_sends cfg turn c).ackCurrent
            (fastRetransmit_evolves turn h.sending h.registered).recv hc
        · exact hc
      by_cases hrst : seg.rst = true
      · rw [handleTCP, if_neg hsyn, if_pos hrst] at hok
        cases hok
        exact absurd hcurrent.1
          (Bool.eq_false_iff.mp (abortTCPConnection_registered turn hdir false))
      have hsyn := Bool.eq_false_iff.mpr hsyn
      have hrst := Bool.eq_false_iff.mpr hrst
      by_cases hs : c.state = .synSent
      · exact h.handshake_current hdir hs hc hsyn hrst hok hcurrent
      have hopen := h.isOpen hs
      rw [handleTCP_eq hopen hsyn hrst] at hok
      exact handleParts_current h hc
        (fun hack _ _ windowChanged hnoted =>
          proceedTCP_spec hnoted hdir hopen hack turn windowChanged)
        (fun _ _ _ _ _ hgoes => proceedTCP_sends hgoes)
        (fun _ hc₁ => handleTCPData_current hc₁ turn seg) hok hcurrent
  | reverse =>
      rw [hdir] at hok
      dsimp only at hok
      have hbumped : ({ c with idleTimer := true } : Conn).AckCurrent cfg := hc.of_eq rfl
      by_cases hrst : seg.rst = true
      · rw [handleReverseTCP, if_pos hrst] at hok
        cases hok
        exact absurd hcurrent.1 (Bool.eq_false_iff.mp
          (abortReverseConnection_registered (c := { c with idleTimer := true }) turn hdir false))
      by_cases hs : c.state = .synSent
      · rw [handleReverseTCP, if_neg hrst, if_pos hs] at hok
        split at hok
        · exact (h.withIdleTimer true).reverseHandshake_current hdir hs hbumped hok
        · cases hok
          exact hbumped
      by_cases hsyn : (seg.syn && seg.ack) = true
      · rw [handleReverseTCP, if_neg hrst, if_neg hs, if_pos hsyn] at hok
        cases hok
        exact sendTCPAck_current cfg _
      have hopen := h.isOpen hs
      rw [handleReverseTCP_eq hopen (Bool.eq_false_iff.mpr hsyn) (Bool.eq_false_iff.mpr hrst)]
        at hok
      exact handleParts_current (h.withIdleTimer true) hbumped
        (fun hack _ _ windowChanged hnoted =>
          proceedReverseTCP_spec hnoted hdir hopen hack turn windowChanged)
        (fun _ _ _ _ _ hgoes => proceedReverseTCP_sends hgoes)
        (fun _ hc₁ => handleReverseTCPData_current hc₁ turn seg) hok hcurrent

/-- None of the other callbacks takes anything from the VM. -/
theorem Live.other_current (h : Live cfg c) (hc : c.AckCurrent cfg) (hcan : c.CanOccur event)
    (hother : ∀ seg, event ≠ .segment seg) (hok : c.handle cfg turn event = .ok c')
    (hcurrent : c'.Current) : c'.AckCurrent cfg := by
  have hany : ∀ (s : State Item Byte) (a : Action Byte), Proper s a → True :=
    fun _ _ _ => trivial
  by_cases hdrains : Drains event
  · obtain ⟨c₁, hhandle, hready, hprepared, -⟩ :=
      h.drains turn hcan hany (fun _ _ _ => trivial) hdrains
    have hc₁ : c₁.AckCurrent cfg :=
      hc.of_eq (by rw [hprepared.sent, hprepared.recv])
    obtain ⟨c₂, hsend, -, hev, -⟩ := hready.trySend turn fun hs => by
      rw [hprepared.retransmission]
      exact h.awaiting (hprepared.state.symm.trans hs)
    obtain rfl := Except.ok.inj (hok.symm.trans (hhandle.trans hsend))
    obtain ⟨refusals, hsent⟩ := trySend_sends hsend
    exact hsent.ackCurrent hev.recv hc₁
  cases event with
  | segment seg => exact absurd rfl (hother seg)
  | endpointError =>
      cases hok
      exact absurd hcurrent (abort_givenUp cfg turn c true).not_current
  | sinkDrain =>
      cases hok
      exact onTCPReceiveDrain_current hc
  | sinkEnd =>
      cases hok
      exact hc.of_eq rfl
  | retransmissionTimer generation =>
      cases hok
      obtain ⟨-, hover⟩ | hfired :=
        fireRetransmissionTimer_spec turn generation hany (fun _ => trivial) h
      · exact absurd hcurrent hover.not_current
      · exact (fireRetransmissionTimer_sends cfg turn c generation).ackCurrent
          (congrArg Frame.recv hfired.frame) hc
  | ackTimer =>
      cases hok
      exact fireAckTimer_current hc h.sending.notClosed
  | idleTimer =>
      cases hok
      exact absurd hcurrent
        (abort_givenUp cfg turn { c with idleTimer := false } true).not_current
  | removalTimer =>
      cases hok
      exact absurd hcurrent.1 Bool.false_ne_true
  | transportFlush =>
      cases hok
      exact hc.of_eq rfl
  | otherTraffic rateLimiter =>
      cases hok
      exact hc.of_eq rfl
  | _ => exact absurd trivial hdrains

/-- The SYN-ACK, or the SYN, acknowledges what there is. -/
theorem Opened.ackCurrent (h : Opened cfg c) : c.AckCurrent cfg := by
  have hnew : ∀ (c₀ : Conn) (flags : Flags), (c₀.transmit cfg [] flags).AckCurrent cfg := by
    intro c₀ flags
    left
    change (c₀.sent ++ [_]).getLast?.map WireSegment.acknowledgment = _
    rw [List.getLast?_concat]
    rfl
  cases h with
  | outbound hopen =>
      obtain ⟨c₀, flags, -, -, -, -, -, -, rfl⟩ := openOutbound_ok hopen
      exact hnew c₀ flags
  | reverse hopen =>
      obtain rfl := transmit_of_openReverse hopen
      exact hnew _ _

theorem Reachable.ackCurrent (h : Reachable cfg c) (hcurrent : c.Current) : c.AckCurrent cfg := by
  obtain ⟨c₀, hopen, labels, hrun⟩ := h
  have hall := hrun.invariant (P := fun c => Inv cfg c ∧ (c.Current → c.AckCurrent cfg))
    (fun c label c' hinv hstep => ⟨hinv.1.step hstep, fun hcurrent => by
      have hlive := hinv.1.live_before hstep hcurrent
      have hc := hinv.2 hlive.current
      obtain ⟨turn, event⟩ := label
      obtain ⟨⟨-, hcan⟩, hok⟩ := hstep
      cases event with
      | segment seg => exact hlive.segment_current hc hok hcurrent
      | _ => exact hlive.other_current hc hcan (by rintro seg ⟨⟩) hok hcurrent⟩)
    ⟨hopen.inv, fun _ => hopen.ackCurrent⟩
  exact hall.2 hcurrent

/-- What the VM has been heard to say is acknowledged, or will be by the pending
acknowledgement, and what brings nothing new is answered at once. -/
theorem ack_currency (h : Reachable cfg c) (hcurrent : c.Current) :
    c.AckCurrent cfg ∧
      ∀ turn seg c', c.state ≠ .synSent → c.Unaccepted seg → c.Answers seg →
        (c.direction = .outbound → (seg.syn && !seg.ack) = false) →
        Step cfg c (turn, .segment seg) c' → c'.Current → AnsweredAtOnce c c' := by
  refine ⟨h.ackCurrent hcurrent, fun turn seg c' hs hnew hanswers hsyn hstep hcurrent' => ?_⟩
  have hlive := h.live hcurrent
  exact hlive.segment_answered (hlive.isOpen hs) hnew hanswers hsyn hstep.2 hcurrent'

/-- A byte beyond the next one. -/
theorem ack_currency_early : ∃ c c' : Conn, c.AckCurrent {} ∧
    Step {} c (exampleByte 101#32 2) c' ∧ AnsweredAtOnce c c' := by
  obtain ⟨c, c', hreach, hstate, -, hrun, hc⟩ := exists_established_run
    (fun _ d label => Brings (fun seg => d.Unaccepted seg ∧ d.Answers seg) label.2)
    [exampleByte 101#32 2] (fun c c' => decide (c.Current ∧ c'.Current)) (by decide)
  obtain ⟨hcurrent, hcurrent'⟩ := of_decide_eq_true hc
  obtain ⟨⟨hnew, hanswers⟩, hstep⟩ := Run.single_iff.mp hrun
  obtain ⟨hc, hall⟩ := ack_currency hreach hcurrent
  refine ⟨c, c', hc, hstep, hall _ _ c' ?_ hnew hanswers (fun _ => rfl) hstep hcurrent'⟩
  rw [hstate]
  decide

theorem byte_fits (octet : UInt8) : ([octet] : Bytes).length < 65536 := by
  simp

/-- A SYN without ACK, and a byte behind it that lies before what is expected:
the SYN takes number 98, the byte 99. -/
def exampleStray : Turn × Event :=
  ({}, .segment
    { seqNum := 98#32, syn := true, window := 1000#16, payload := [1], payload_fits := byte_fits 1 })

/-- An outbound connection does not answer it. Neither is a byte answered at
once that is half the sequence space away: it is taken for the next one. -/
theorem stray_unanswered :
    (∃ c c' : Conn, Reachable {} c ∧ c.state = .established ∧ c.registered = true ∧
      Brings (fun seg => c.Unaccepted seg ∧ c.Answers seg) exampleStray.2 ∧
      Step {} c exampleStray c' ∧ c'.Current ∧ ¬AnsweredAtOnce c c') ∧
    ∃ c c' : Conn, Reachable {} c ∧ c.state = .established ∧
      Step {} c (exampleByte (100#32 + 0x80000000#32) 7) c' ∧ c'.Current ∧
      c.recv.vmSeq = 100#32 ∧ c'.recv.accepted = c.recv.accepted ++ [7] ∧
      ¬AnsweredAtOnce c c' := by
  constructor
  · obtain ⟨c, c', hreach, hstate, -, hrun, hc⟩ := exists_established_run
      (fun _ d label => Brings (fun seg => d.Unaccepted seg ∧ d.Answers seg) label.2)
      [exampleStray]
      (fun c c' => decide (c.registered = true ∧ c'.Current ∧ ¬AnsweredAtOnce c c')) (by decide)
    obtain ⟨hreg, hcurrent', hsilent⟩ := of_decide_eq_true hc
    obtain ⟨hbrings, hstep⟩ := Run.single_iff.mp hrun
    exact ⟨c, c', hreach, hstate, hreg, hbrings, hstep, hcurrent', hsilent⟩
  · obtain ⟨c, c', hreach, hstate, -, hrun, hc⟩ := exists_established_run
      (fun _ _ label => Brings (fun _ => True) label.2)
      [exampleByte (100#32 + 0x80000000#32) 7]
      (fun c c' => decide (c'.Current ∧ c.recv.vmSeq = 100#32 ∧
        c'.recv.accepted = c.recv.accepted ++ [7] ∧ ¬AnsweredAtOnce c c')) (by decide)
    exact ⟨c, c', hreach, hstate, (Run.single_iff.mp hrun).2, of_decide_eq_true hc⟩

end Conn

end RootlessRelay
