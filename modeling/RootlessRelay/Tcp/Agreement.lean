import RootlessRelay.Tcp.ProtocolFields

/-!
# Where the two handlers agree

`handleTCP` and `handleReverseTCP` are written independently. From equal fields
both come to the same receiving side, the same answers and the same end of the
connection, and both repeat the same part of what was outstanding and keep the
same rest of it.

What they send beyond that differs: `handleTCP` passes the rate limiter and runs
the send loop at most once. So one of them may send its own FIN where the other
cannot, and its state becomes `FIN_WAIT`. Leaving persist mode is left to the
send loop as well, so the oldest segment may be repeated by one connection and
not by the other when it begins in that mode.

The two connections are taken through their handlers side by side, part by part,
and after each part it is stated what they still have in common. The parts are
the acknowledgement with its repeats, the send loop, and payload with FIN.
-/

namespace RootlessRelay

open SequenceSpace Transition SendStream

namespace Conn

variable {cfg : Settings} {turn turn₁ turn₂ : Turn} {c c' c₁ c₂ d₁ d₂ : Conn} {seg : VMSegment}

/-- The acknowledgement number and the window of an acknowledgement to the VM,
which is all it tells. -/
def answer (wire : WireSegment) : Seq × Nat := (wire.acknowledgment, wire.window)

/-- The answers given on the way from `c` to `c'`. -/
def answersSince (c c' : Conn) : List (Seq × Nat) := (acksSince c c').map answer

/-- `answers` are the acknowledgements among what has been sent since `c`. -/
def Replies (c c' : Conn) (answers : List (Seq × Nat)) : Prop :=
  ∃ wires, c'.sent = c.sent ++ wires ∧
    (wires.filter fun wire => ¬wire.Sequenced).map answer = answers

namespace Replies

theorem of_sent (h : c'.sent = c.sent) : Replies c c' [] :=
  ⟨[], by rw [h, List.append_nil], rfl⟩

theorem trans {c'' : Conn} {answers answers' : List (Seq × Nat)} (h : Replies c c' answers)
    (h' : Replies c' c'' answers') : Replies c c'' (answers ++ answers') := by
  obtain ⟨wires, hsent, hwires⟩ := h
  obtain ⟨wires', hsent', hwires'⟩ := h'
  refine ⟨wires ++ wires', by rw [hsent', hsent, List.append_assoc], ?_⟩
  rw [List.filter_append, List.map_append, hwires, hwires']

theorem of_sequences (h : Sequences c c') : Replies c c' [] := by
  obtain ⟨wires, hsent, hall⟩ := h
  refine ⟨wires, hsent, ?_⟩
  have hnone : wires.filter (fun wire => ¬wire.Sequenced) = [] :=
    List.filter_eq_nil_iff.mpr fun wire hmem => by simpa using hall wire hmem
  rw [hnone, List.map_nil]

theorem answersSince {answers : List (Seq × Nat)} (h : Replies c c' answers) :
    answersSince c c' = answers := by
  obtain ⟨wires, hsent, hwires⟩ := h
  rw [Conn.answersSince, acksSince, hsent, List.drop_left, hwires]

end Replies

/-- Two connections come to equal receiving sides, and answer alike on the way. -/
structure Alike (c₁ c₂ d₁ d₂ : Conn) : Prop where
  recv : d₁.recv = d₂.recv
  answers : ∃ answers, Replies c₁ d₁ answers ∧ Replies c₂ d₂ answers

theorem Alike.trans {e₁ e₂ : Conn} (h : Alike c₁ c₂ d₁ d₂) (h' : Alike d₁ d₂ e₁ e₂) :
    Alike c₁ c₂ e₁ e₂ := by
  obtain ⟨answers, ha₁, ha₂⟩ := h.answers
  obtain ⟨answers', ha₁', ha₂'⟩ := h'.answers
  exact ⟨h'.recv, answers ++ answers', ha₁.trans ha₁', ha₂.trans ha₂'⟩

/-- `Alike` looks only at what the first two have sent, not at their other
fields. -/
theorem Alike.rebase {e₁ e₂ : Conn} (h : Alike c₁ c₂ d₁ d₂) (h₁ : c₁.sent = e₁.sent)
    (h₂ : c₂.sent = e₂.sent) : Alike e₁ e₂ d₁ d₂ := by
  obtain ⟨hrecv, answers, ha₁, ha₂⟩ := h
  unfold Replies at ha₁ ha₂
  rw [h₁] at ha₁
  rw [h₂] at ha₂
  exact ⟨hrecv, answers, ha₁, ha₂⟩

theorem sendTCPAck_alike (cfg : Settings) (h : c₁.recv = c₂.recv) :
    Alike c₁ c₂ (c₁.sendTCPAck cfg) (c₂.sendTCPAck cfg) := by
  rw [sendTCPAck_eq, sendTCPAck_eq]
  have hrecv : c₁.clearDelayedTCPAck.recv = c₂.clearDelayedTCPAck.recv := by
    rw [clearDelayedTCPAck, clearDelayedTCPAck, h]
  have hanswer : answer (c₁.ackSegment cfg) = answer (c₂.ackSegment cfg) := by
    unfold answer ackSegment wire tcpReceiveWindow
    rw [h]
  exact ⟨hrecv, [answer (c₁.ackSegment cfg)], ⟨_, rfl, rfl⟩, ⟨_, rfl, by rw [hanswer]; rfl⟩⟩

/-- From equal receiving sides the same acknowledgement is sent, or the same one
is delayed. -/
theorem scheduleTCPAck_alike (cfg : Settings) (h : c₁.recv = c₂.recv) (segments : Nat)
    (immediate : Bool) :
    Alike c₁ c₂ (c₁.scheduleTCPAck cfg segments immediate)
      (c₂.scheduleTCPAck cfg segments immediate) := by
  have hwindow : ∀ pending,
      ({ c₁ with recv := { c₁.recv with receiveAckPendingSegments := pending } } :
        Conn).tcpReceiveWindow cfg =
      ({ c₂ with recv := { c₂.recv with receiveAckPendingSegments := pending } } :
        Conn).tcpReceiveWindow cfg := fun _ => by
    unfold tcpReceiveWindow
    rw [h]
  unfold scheduleTCPAck
  dsimp only
  rw [hwindow, h]
  split
  · refine Alike.rebase (sendTCPAck_alike cfg ?_) rfl rfl
    rfl
  · exact ⟨rfl, [], .of_sent rfl, .of_sent rfl⟩

theorem handleTCPPayload_turn (cfg : Settings) (hsink : turn₁.sinkAccepts = turn₂.sinkAccepts)
    (c : Conn) (seg : VMSegment) :
    c.handleTCPPayload cfg turn₁ seg = c.handleTCPPayload cfg turn₂ seg := by
  have hwrite : ∀ recv payload, writeReceived turn₁ recv payload = writeReceived turn₂ recv payload :=
    fun recv payload => by rw [writeReceived, writeReceived, hsink]
  have hdrain : ∀ recv, drainReceived turn₁ recv = drainReceived turn₂ recv :=
    fun recv => by simp only [drainReceived, hwrite]
  simp only [handleTCPPayload, forwardTCP, hwrite, hdrain]

/-- The payload parts of the two handlers do the same, in a different order. -/
theorem handleReverseTCPPayload_eq (cfg : Settings) (turn : Turn) (c : Conn) (seg : VMSegment) :
    c.handleReverseTCPPayload cfg turn seg = c.handleTCPPayload cfg turn seg := by
  unfold handleReverseTCPPayload handleTCPPayload forwardTCP
  dsimp only
  by_cases hempty : seg.payload.length = 0
  · rw [if_pos hempty, if_pos hempty]
  rw [if_neg hempty, if_neg hempty]
  by_cases hold : seqLessThan seg.seqNum c.recv.vmSeq = true
  · have hne : seg.seqNum ≠ c.recv.vmSeq := by
      rintro heq
      rw [heq, not_seqLessThan_self] at hold
      cases hold
    simp only [hold, Bool.true_and, decide_eq_true_eq, if_true, not_seqLessThan_self,
      Bool.false_eq_true, if_false, if_neg hne, writeReceived_advanceOver, writeReceived_vmSeq]
  · have hnew : seqLessThan seg.seqNum c.recv.vmSeq = false := by simpa using hold
    simp only [hnew, Bool.false_and, Bool.false_eq_true, if_false]
    by_cases heq : seg.seqNum = c.recv.vmSeq
    · simp only [heq, not_seqLessThan_self, Bool.false_eq_true, if_false, if_true,
        writeReceived_advanceOver, writeReceived_vmSeq]
    · simp only [seqLessThan_of_ne heq hnew, if_true, heq, if_false]

/-- The payload part from equal receiving sides. -/
theorem handleTCPPayload_alike (cfg : Settings) (turn : Turn) (h : c₁.recv = c₂.recv)
    (seg : VMSegment) :
    (c₁.handleTCPPayload cfg turn seg).2 = (c₂.handleTCPPayload cfg turn seg).2 ∧
      Alike c₁ c₂ (c₁.handleTCPPayload cfg turn seg).1 (c₂.handleTCPPayload cfg turn seg).1 := by
  have hschedule : ∀ recv segments immediate, Alike c₁ c₂
      (({ c₁ with recv } : Conn).scheduleTCPAck cfg segments immediate)
      (({ c₂ with recv } : Conn).scheduleTCPAck cfg segments immediate) := fun recv _ _ =>
    Alike.rebase (scheduleTCPAck_alike cfg (by rfl) _ _) rfl rfl
  unfold handleTCPPayload forwardTCP
  dsimp only
  rw [h]
  split
  · exact ⟨rfl, h, [], .of_sent rfl, .of_sent rfl⟩
  split
  · exact ⟨rfl, hschedule _ _ _⟩
  split
  · split
    · exact ⟨rfl, scheduleTCPAck_alike cfg h 0 true⟩
    · exact ⟨rfl, hschedule _ _ _⟩
  · dsimp only
    exact ⟨rfl, hschedule _ _ _⟩

/-- The fields of the sending side that a segment of the VM decides alone,
whatever the send loop does. -/
structure Marks where
  sndUna : Seq
  vmWindow : Nat
  dupAckCount : Nat
  fastRetransmitAck : Option Seq

/-- These fields of a connection. -/
def marks (c : Conn) : Marks where
  sndUna := c.send.retransmission.sndUna
  vmWindow := c.send.vmWindow
  dupAckCount := c.send.dupAckCount
  fastRetransmitAck := c.send.fastRetransmitAck

/-- What payload and FIN leave of two connections: alike, with the states they
had or in one state. -/
structure PairProcessed (c₁ c₂ d₁ d₂ : Conn) : Prop where
  alike : Alike c₁ c₂ d₁ d₂
  marks₁ : d₁.marks = c₁.marks
  marks₂ : d₂.marks = c₂.marks
  finSent₁ : d₁.send.finSent = c₁.send.finSent
  finSent₂ : d₂.send.finSent = c₂.send.finSent
  state : d₁.state = c₁.state ∧ d₂.state = c₂.state ∨ d₁.state = d₂.state

theorem shutDown_marks (c : Conn) : c.shutDown.marks = c.marks := by
  have huna : c.send.retransmission.close.sndUna = c.send.retransmission.sndUna := by
    unfold RetransmissionQueue.close
    split <;> rfl
  exact congrArg (fun sndUna => { c.marks with sndUna }) huna

/-- Finishing a connection, in the way of either handler. -/
theorem finish_processed (h : c₁.recv = c₂.recv) (hreg₁ : c₁.registered = true)
    (hreg₂ : c₂.registered = true) :
    PairProcessed c₁ c₂ c₁.finishTCPConnection c₂.finishReverseConnection := by
  have hfinished₁ : c₁.finishTCPConnection = { c₁.shutDown with removalTimer := true } := by
    rw [finishTCPConnection, if_neg (by simp [hreg₁])]
  have hfinished₂ : c₂.finishReverseConnection =
      { c₂.shutDown with registered := false, idleTimer := false } := by
    rw [finishReverseConnection, if_neg (by simp [hreg₂])]
  rw [hfinished₁, hfinished₂]
  refine ⟨⟨?_, [], .of_sent rfl, .of_sent rfl⟩, shutDown_marks c₁, shutDown_marks c₂, rfl, rfl,
    .inr rfl⟩
  simp only [shutDown, clearDelayedTCPAck, h]

/-- An acknowledgement that cannot be delayed is sent at once. -/
theorem scheduleTCPAck_now (cfg : Settings) (c : Conn) :
    c.scheduleTCPAck cfg 0 true = c.sendTCPAck cfg := by
  rw [scheduleTCPAck, Bool.true_or, Bool.true_or, Bool.true_or, if_pos rfl]
  rfl

/-- A FIN of the VM that comes in sequence, up to the end of the connection: the
sink is ended and the FIN acknowledged. -/
def closed (cfg : Settings) (c : Conn) : Conn :=
  ({ c with state := .closing, recv := endSink (passFin c.recv) }).scheduleTCPAck cfg 0 true

theorem closed_passive (cfg : Settings) (c : Conn) :
    Passive { c with state := .closing, recv := endSink (passFin c.recv) } (c.closed cfg) :=
  scheduleTCPAck_passive cfg _ 0 true

theorem closed_finAcknowledged (cfg : Settings) (c : Conn) :
    (c.closed cfg).finAcknowledged = c.finAcknowledged := by
  rw [finAcknowledged, (closed_passive cfg c).send]
  rfl

/-- The FIN part of the outbound handler, in the order of the reverse one. -/
theorem handleTCPFin_eq (cfg : Settings) (c : Conn) (seg : VMSegment) :
    c.handleTCPFin cfg seg =
      if !seg.fin then c
      else if seg.seqNum + BitVec.ofNat 32 seg.payload.length ≠ c.recv.vmSeq then
        c.scheduleTCPAck cfg 0 true
      else if c.finAcknowledged then (c.closed cfg).finishTCPConnection else c.closed cfg := by
  have hclosed : c.closed cfg =
      { ({ c with recv := passFin c.recv } : Conn).scheduleTCPAck cfg 0 true with
        state := .closing
        recv := endSink
          (({ c with recv := passFin c.recv } : Conn).scheduleTCPAck cfg 0 true).recv } := by
    simp only [closed, scheduleTCPAck_now, sendTCPAck_eq]
    rfl
  rw [← closed_finAcknowledged cfg c, hclosed]
  rfl

/-- The FIN part of the reverse handler, in the same words. -/
theorem handleReverseTCPFin_eq (cfg : Settings) (c : Conn) (seg : VMSegment) :
    c.handleReverseTCPFin cfg seg =
      if !seg.fin then c
      else if seg.seqNum + BitVec.ofNat 32 seg.payload.length ≠ c.recv.vmSeq then
        c.scheduleTCPAck cfg 0 true
      else if c.finAcknowledged then (c.closed cfg).finishReverseConnection else c.closed cfg := by
  rw [← closed_finAcknowledged cfg c]
  rfl

theorem PairProcessed.trans {e₁ e₂ : Conn} (h : PairProcessed c₁ c₂ d₁ d₂)
    (h' : PairProcessed d₁ d₂ e₁ e₂) : PairProcessed c₁ c₂ e₁ e₂ := by
  refine ⟨h.alike.trans h'.alike, h'.marks₁.trans h.marks₁, h'.marks₂.trans h.marks₂,
    h'.finSent₁.trans h.finSent₁, h'.finSent₂.trans h.finSent₂, ?_⟩
  rcases h'.state with ⟨hs₁, hs₂⟩ | hs
  · rw [hs₁, hs₂]
    exact h.state
  · exact .inr hs

theorem PairProcessed.of_passive (h : Alike c₁ c₂ d₁ d₂) (h₁ : Passive c₁ d₁)
    (h₂ : Passive c₂ d₂) : PairProcessed c₁ c₂ d₁ d₂ :=
  ⟨h, by rw [marks, marks, h₁.send], by rw [marks, marks, h₂.send], by rw [h₁.send],
    by rw [h₂.send], .inl ⟨h₁.state, h₂.state⟩⟩

/-- The FIN parts of the two handlers, from equal receiving sides. -/
theorem handleFin_processed (cfg : Settings) (h : c₁.recv = c₂.recv)
    (hreg₁ : c₁.registered = true) (hreg₂ : c₂.registered = true)
    (hend : c₁.finAcknowledged = c₂.finAcknowledged) (seg : VMSegment) :
    PairProcessed c₁ c₂ (c₁.handleTCPFin cfg seg) (c₂.handleReverseTCPFin cfg seg) := by
  have hclosed : PairProcessed c₁ c₂ (c₁.closed cfg) (c₂.closed cfg) := by
    have hp₁ := closed_passive cfg c₁
    have hp₂ := closed_passive cfg c₂
    refine ⟨Alike.rebase (scheduleTCPAck_alike cfg ?_ 0 true) rfl rfl, ?_, ?_, ?_, ?_, ?_⟩
    · dsimp only
      rw [h]
    · rw [marks, hp₁.send]
      rfl
    · rw [marks, hp₂.send]
      rfl
    · rw [hp₁.send]
    · rw [hp₂.send]
    · exact .inr (hp₁.state.trans hp₂.state.symm)
  rw [handleTCPFin_eq, handleReverseTCPFin_eq, h, hend]
  split
  · exact .of_passive ⟨h, [], .of_sent rfl, .of_sent rfl⟩ (.refl c₁) (.refl c₂)
  split
  · exact .of_passive (scheduleTCPAck_alike cfg h 0 true) (scheduleTCPAck_passive cfg c₁ 0 true)
      (scheduleTCPAck_passive cfg c₂ 0 true)
  split
  · exact hclosed.trans (finish_processed hclosed.alike.recv
      ((closed_passive cfg c₁).registered.trans hreg₁)
      ((closed_passive cfg c₂).registered.trans hreg₂))
  · exact hclosed

/-- Payload and FIN, for sinks that answer alike. -/
theorem handleData_processed (cfg : Settings) (hsink : turn₁.sinkAccepts = turn₂.sinkAccepts)
    (h : c₁.recv = c₂.recv) (hreg₁ : c₁.registered = true) (hreg₂ : c₂.registered = true)
    (hend : c₁.finAcknowledged = c₂.finAcknowledged) (seg : VMSegment) :
    PairProcessed c₁ c₂ (c₁.handleTCPData cfg turn₁ seg) (c₂.handleReverseTCPData cfg turn₂ seg) := by
  obtain ⟨hdone, halike⟩ := handleTCPPayload_alike cfg turn₂ h seg
  have hp₁ := (handleTCPPayload_spec cfg turn₂ c₁ seg).1
  have hp₂ := (handleTCPPayload_spec cfg turn₂ c₂ seg).1
  have hpaid := PairProcessed.of_passive halike hp₁ hp₂
  unfold handleTCPData handleReverseTCPData
  rw [handleTCPPayload_turn cfg hsink, handleReverseTCPPayload_eq]
  dsimp only
  rw [hdone]
  split
  · exact hpaid
  · refine hpaid.trans (handleFin_processed cfg halike.recv (hp₁.registered.trans hreg₁)
      (hp₂.registered.trans hreg₂) ?_ seg)
    rw [finAcknowledged, finAcknowledged, hp₁.send, hp₂.send]
    exact hend

/-- Payload and FIN send acknowledgements only, and leave the retransmission
queue alone unless they finish the connection. -/
structure OnlyAnswers (c c' : Conn) : Prop where
  acks : Acks c c'
  queue : c'.state = .closed ∨ c'.send.retransmission = c.send.retransmission

theorem OnlyAnswers.of_passive (hacks : Acks c c') (h : Passive c c') : OnlyAnswers c c' :=
  ⟨hacks, .inr (by rw [h.send])⟩

theorem OnlyAnswers.after_passive {c'' : Conn} (hacks : Acks c c') (hp : Passive c c')
    (h : OnlyAnswers c' c'') : OnlyAnswers c c'' :=
  ⟨hacks.trans h.acks, h.queue.imp_right fun hq => hq.trans (by rw [hp.send])⟩

theorem finishTCPConnection_onlyAnswers (c : Conn) : OnlyAnswers c c.finishTCPConnection := by
  unfold finishTCPConnection
  split
  · exact ⟨.of_sent rfl, .inr rfl⟩
  · exact ⟨.of_sent rfl, .inl rfl⟩

theorem finishReverseConnection_onlyAnswers (c : Conn) :
    OnlyAnswers c c.finishReverseConnection := by
  unfold finishReverseConnection
  split
  · exact ⟨.of_sent rfl, .inr rfl⟩
  · exact ⟨.of_sent rfl, .inl rfl⟩

theorem closed_onlyAnswers (cfg : Settings) (h : OnlyAnswers (c.closed cfg) c') :
    OnlyAnswers c c' := by
  have hacks : Acks c (c.closed cfg) := scheduleTCPAck_acks cfg
    { c with state := .closing, recv := endSink (passFin c.recv) } 0 true
  refine ⟨hacks.trans h.acks, h.queue.imp_right fun hq => hq.trans ?_⟩
  rw [(closed_passive cfg c).send]

/-- The FIN part of either handler, with its own way to finish the connection. -/
theorem fin_onlyAnswers (cfg : Settings) {finish : Conn → Conn}
    (hfinish : ∀ c, OnlyAnswers c (finish c)) (c : Conn) (seg : VMSegment) :
    OnlyAnswers c (if !seg.fin then c
      else if seg.seqNum + BitVec.ofNat 32 seg.payload.length ≠ c.recv.vmSeq then
        c.scheduleTCPAck cfg 0 true
      else if c.finAcknowledged then finish (c.closed cfg) else c.closed cfg) := by
  split
  · exact ⟨.of_sent rfl, .inr rfl⟩
  split
  · exact .of_passive (scheduleTCPAck_acks cfg c 0 true) (scheduleTCPAck_passive cfg c 0 true)
  refine closed_onlyAnswers cfg ?_
  split
  · exact hfinish _
  · exact ⟨.of_sent rfl, .inr rfl⟩

/-- Payload and FIN send acknowledgements and nothing else. -/
theorem handleTCPData_onlyAnswers (cfg : Settings) (turn : Turn) (c : Conn) (seg : VMSegment) :
    OnlyAnswers c (c.handleTCPData cfg turn seg) := by
  obtain ⟨hp, -, -⟩ := handleTCPPayload_spec cfg turn c seg
  have hacks := handleTCPPayload_acks cfg turn c seg
  unfold handleTCPData
  dsimp only
  split
  · exact .of_passive hacks hp
  rw [handleTCPFin_eq]
  exact .after_passive hacks hp (fin_onlyAnswers cfg finishTCPConnection_onlyAnswers _ seg)

/-- The same for the reverse handler. -/
theorem handleReverseTCPData_onlyAnswers (cfg : Settings) (turn : Turn) (c : Conn)
    (seg : VMSegment) : OnlyAnswers c (c.handleReverseTCPData cfg turn seg) := by
  obtain ⟨hp, -, -⟩ := handleReverseTCPPayload_spec cfg turn c seg
  have hacks := handleReverseTCPPayload_acks cfg turn c seg
  unfold handleReverseTCPData
  dsimp only
  split
  · exact .of_passive hacks hp
  rw [handleReverseTCPFin_eq]
  exact .after_passive hacks hp (fin_onlyAnswers cfg finishReverseConnection_onlyAnswers _ seg)

/-- The handler goes on after the acknowledgement, unless both sides have
closed. -/
theorem proceedTCP_pushes {b : Conn} {status : AckStatus} (hnoted : Noted cfg b seg status c)
    (hdir : b.direction = .outbound) (hopen : b.state.isOpen = true)
    (hwaits : ¬(status = .future ∨ status = .stale))
    (hboth : status ≠ .advanced → c.bothClosed = false) (turn : Turn) (windowChanged : Bool) :
    (c.bothClosed = true ∧
      c.proceedTCP cfg turn status windowChanged = .ok (c.finishTCPConnection, true)) ∨
    (c.bothClosed = false ∧ ∃ c', c.proceedTCP cfg turn status windowChanged = .ok (c', false) ∧
      Live cfg c' ∧ Pushes cfg c c' ∧
      c'.send.dupAckCount = if windowChanged then 0 else c.send.dupAckCount) := by
  have hdir₁ : c.direction = .outbound := (congrArg Context.direction hnoted.context).trans hdir
  have hopen₁ : c.state.isOpen = true := by
    rw [hnoted.state]
    exact hopen
  unfold proceedTCP
  rw [if_neg hwaits]
  by_cases hprogress : status = .advanced ∨ windowChanged = true
  swap
  · have hne : status ≠ .advanced := fun he => hprogress (.inl he)
    rw [if_neg hprogress]
    refine .inr ⟨hboth hne, c, rfl, hnoted.live hne, .refl hnoted.ready.sending, ?_⟩
    rw [if_neg fun hchanged => hprogress (.inr hchanged)]
  rw [if_pos hprogress]
  cases hclosed : c.bothClosed with
  | true => exact .inl ⟨rfl, rfl⟩
  | false =>
      have hpushes := resetDup_pushes hnoted.ready.sending windowChanged
      obtain ⟨c', hok, hlive, hpushes', hcount⟩ := (hnoted.ready.resetDup windowChanged).trySend_pushes
        (hpushes.evolves.isOpen hopen₁) turn
      rw [trySend_outbound (hpushes.evolves.direction.trans hdir₁)] at hok
      refine .inr ⟨rfl, c', by rw [hok]; rfl, hlive, hpushes.trans hpushes', hcount.trans ?_⟩
      unfold resetDup
      split <;> rfl

/-- The reverse handler goes on after the acknowledgement, after two runs of its
send loop at most. -/
theorem proceedReverseTCP_pushes {b : Conn} {status : AckStatus} (hnoted : Noted cfg b seg status c)
    (hdir : b.direction = .reverse) (hopen : b.state.isOpen = true)
    (hwaits : ¬(status = .future ∨ status = .stale))
    (hboth : status ≠ .advanced → c.bothClosed = false) (turn : Turn) (windowChanged : Bool) :
    (c.bothClosed = true ∧
      c.proceedReverseTCP cfg turn status windowChanged = .ok (c.finishReverseConnection, true)) ∨
    (c.bothClosed = false ∧
      ∃ c', c.proceedReverseTCP cfg turn status windowChanged = .ok (c', false) ∧
        Live cfg c' ∧ Pushes cfg c c' ∧
        c'.send.dupAckCount = if windowChanged then 0 else c.send.dupAckCount) := by
  have hdir₁ : c.direction = .reverse := (congrArg Context.direction hnoted.context).trans hdir
  have hopen₁ : c.state.isOpen = true := by
    rw [hnoted.state]
    exact hopen
  unfold proceedReverseTCP
  rw [if_neg hwaits]
  cases hclosed : c.bothClosed with
  | true =>
      have hadvanced : status = .advanced := by
        by_contra hne
        exact Bool.false_ne_true ((hboth hne).symm.trans hclosed)
      rw [if_pos ⟨hadvanced, rfl⟩]
      exact .inl ⟨rfl, rfl⟩
  | false =>
      rw [if_neg (by simp)]
      -- The first send loop runs after an acknowledgement that advanced.
      obtain ⟨c₁, hok, hlive, hpushes, hcount⟩ : ∃ c₁, (if status = .advanced then
          c.trySendReverseToVM cfg turn else .ok c) = .ok c₁ ∧ Live cfg c₁ ∧ Pushes cfg c c₁ ∧
          c₁.send.dupAckCount = c.send.dupAckCount := by
        split
        · obtain ⟨c₁, hok, hfirst⟩ := hnoted.ready.trySend_pushes hopen₁ turn
          rw [trySend_reverse hdir₁] at hok
          exact ⟨c₁, hok, hfirst⟩
        · rename_i hne
          exact ⟨c, rfl, hnoted.live hne, .refl hnoted.ready.sending, rfl⟩
      rw [hok]
      cases windowChanged with
      | false => exact .inr ⟨rfl, c₁, rfl, hlive, hpushes, hcount⟩
      | true =>
          have hreset := hpushes.trans (resetDup_pushes hlive.sending true)
          obtain ⟨c', hok', hlive', hpushes', hcount'⟩ := (hlive.toReady.resetDup true).trySend_pushes
            (hreset.evolves.isOpen hopen₁) turn
          rw [trySend_reverse (hreset.evolves.direction.trans hdir₁)] at hok'
          refine .inr ⟨rfl, c', ?_, hlive', hreset.trans hpushes', hcount'⟩
          dsimp only
          rw [if_pos rfl, hok']
          rfl

/-- What was outstanding in `c` and has been sent again on the way to `c'`: the
items that the segments carry under numbers below `sndNxt`. -/
def repeatsSince (c c' : Conn) : List (Seq × Item) :=
  (placed (c'.sent.drop c.sent.length)).filter fun entry =>
    c.ackedItems entry.1 < c.stream.outstanding.length

/-- Of two connections in one state, `c'` has sent its FIN on the way and `d'`
has not. It is the one way in which their states come apart. -/
def OnlySendsFin (c c' d' : Conn) : Prop :=
  c.send.finSent = false ∧ c'.send.finSent = true ∧ c'.state = .finWait ∧
    d'.send.finSent = false ∧ d'.state = c.state

/-- What processing a segment leaves of two connections. Their queues keep the
same segments of those that were outstanding; what each has sent for the first
time comes behind. -/
structure Agree (c₁ c₂ d₁ d₂ : Conn) : Prop where
  recv : d₁.recv = d₂.recv
  answers : answersSince c₁ d₁ = answersSince c₂ d₂
  marks : d₁.marks = d₂.marks
  kept : d₁.state ≠ .closed → ∃ kept new₁ new₂,
    segmentItems kept =
      c₁.stream.outstanding.drop (c₁.ackedItems d₁.send.retransmission.sndUna) ∧
    d₁.send.retransmission.segments = kept ++ new₁ ∧
    d₂.send.retransmission.segments = kept ++ new₂
  repeats : c₁.send.retransmission.persist = false → repeatsSince c₁ d₁ = repeatsSince c₂ d₂
  finished : d₁.state = .closed ↔ d₂.state = .closed
  state : d₁.state = d₂.state ∨ OnlySendsFin c₁ d₁ d₂ ∨ OnlySendsFin c₂ d₂ d₁

/-- The stations of a handler: `a` has noted the acknowledgement, `e` has run
the send loop, and `d` has processed payload and FIN. -/
structure Stations (cfg : Settings) (c a e d : Conn) : Prop where
  before : c.Sending cfg
  trims : Trims c a
  adds : ∃ new, Adds a e new
  after : e.Sending cfg
  answers : OnlyAnswers e d

/-- The new data of the send loop stand at `sndNxt` or behind it, and
acknowledgements carry nothing: only what was sent while the acknowledgement was
noted has been sent before. -/
theorem Stations.repeats {a e d : Conn} (h : Stations cfg c a e d)
    (hpersist : c.send.retransmission.persist = false) {wires : List WireSegment}
    (hsent : a.sent = c.sent ++ wires) :
    repeatsSince c d = (placed wires).filter fun entry =>
      c.ackedItems entry.1 < c.stream.outstanding.length := by
  obtain ⟨new, hadds⟩ := h.adds
  obtain ⟨fresh, hfresh, hnumbers⟩ := hadds.sent
  obtain ⟨acks, hacks, hnone⟩ := h.answers.acks
  have hshut : a.Shut := fun hon =>
    absurd (h.trims.persist.symm.trans hon) (by rw [hpersist]; decide)
  have hlong : (segmentItems new).length ≤ 65538 := by
    have hle := h.after.outstanding_le
    rw [RetransmissionQueue.items, hadds.segments, segmentItems_append, List.length_append] at hle
    omega
  have hout : c.stream.outstanding.length ≤ 65538 := h.before.outstanding_le
  have hbehind : (placed fresh).filter (fun entry =>
      c.ackedItems entry.1 < c.stream.outstanding.length) = [] := by
    refine List.filter_eq_nil_iff.mpr fun entry hmem => ?_
    obtain ⟨k, hk, hentry⟩ := hnumbers hshut entry hmem
    have hnumber : entry.1 = position c.send.retransmission.sndUna
        (c.stream.outstanding.length + k) := by
      rw [hentry, h.trims.sndNxt, h.before.tracked.next, position_add]
      rfl
    have hdistance : c.ackedItems entry.1 = c.stream.outstanding.length + k := by
      rw [ackedItems, hnumber, distance_position_self, Nat.mod_eq_of_lt (by omega)]
    simp [hdistance]
  rw [repeatsSince, hacks, hfresh, hsent, List.append_assoc, List.append_assoc, List.drop_left,
    placed_append, placed_append, placed_acks hnone, List.append_nil, List.filter_append, hbehind,
    List.append_nil]

/-- What two connections have in common at the end, from what each of them has
passed through on the way. -/
theorem Agree.of_stations {a₁ a₂ e₁ e₂ : Conn} (hnot : c₁.state ≠ .closed)
    (hfields : c₁.protocolFields = c₂.protocolFields) (htwin : Twin c₁ c₂ a₁ a₂)
    (h₁ : Stations cfg c₁ a₁ e₁ d₁) (h₂ : Stations cfg c₂ a₂ e₂ d₂)
    (halike : Alike c₁ c₂ d₁ d₂) (hmarks : d₁.marks = d₂.marks)
    (hstate : d₁.state = d₂.state ∨ OnlySendsFin c₁ d₁ d₂ ∨ OnlySendsFin c₂ d₂ d₁) :
    Agree c₁ c₂ d₁ d₂ := by
  have hqueue := retransmission_congr hfields
  have hsame : c₁.state = c₂.state := congrArg ProtocolFields.state hfields
  have hfinished : d₁.state = .closed ↔ d₂.state = .closed := by
    rcases hstate with he | ⟨-, -, hwait, -, hkept⟩ | ⟨-, -, hwait, -, hkept⟩
    · rw [he]
    · rw [hwait, hkept]
      exact iff_of_false (by decide) hnot
    · rw [hwait, hkept]
      exact iff_of_false (by rwa [← hsame]) (by decide)
  constructor
  · exact halike.recv
  · obtain ⟨answers, ha₁, ha₂⟩ := halike.answers
    rw [ha₁.answersSince, ha₂.answersSince]
  · exact hmarks
  · intro hopen
    obtain ⟨new₁, hadds₁⟩ := h₁.adds
    obtain ⟨new₂, hadds₂⟩ := h₂.adds
    have hkept₁ := h₁.answers.queue.resolve_left hopen
    have hkept₂ := h₂.answers.queue.resolve_left fun he => hopen (hfinished.mpr he)
    refine ⟨a₁.send.retransmission.segments, new₁, new₂, ?_, ?_, ?_⟩
    · rw [hkept₁, hadds₁.sndUna]
      exact h₁.trims.items
    · rw [hkept₁, hadds₁.segments]
    · rw [hkept₂, hadds₂.segments, retransmission_congr htwin.fields]
  · intro hpersist
    obtain ⟨wires₁, wires₂, hsent₁, hsent₂, hplaced⟩ := htwin.repeats
    have hbelow : ∀ number, c₁.ackedItems number = c₂.ackedItems number := fun number => by
      rw [ackedItems, ackedItems, hqueue]
    have hout : c₁.stream.outstanding = c₂.stream.outstanding :=
      congrArg RetransmissionQueue.items hqueue
    rw [h₁.repeats hpersist hsent₁, h₂.repeats (hqueue ▸ hpersist) hsent₂, hplaced]
    simp only [hbelow, hout]
  · exact hfinished
  · exact hstate

/-- The send loops may disagree about the FIN; payload and FIN of the VM do not. -/
theorem finSteps_state {e₁ e₂ : Conn} (hsame : c₁.state = c₂.state)
    (hfin : c₁.send.finSent = c₂.send.finSent) (h₁ : FinStep c₁ d₁) (h₂ : FinStep c₂ d₂)
    (h : PairProcessed d₁ d₂ e₁ e₂) :
    e₁.state = e₂.state ∨ OnlySendsFin c₁ e₁ e₂ ∨ OnlySendsFin c₂ e₂ e₁ := by
  have he₁ := h.finSent₁
  have he₂ := h.finSent₂
  rcases h.state with ⟨hs₁, hs₂⟩ | hs
  swap
  · exact .inl hs
  rcases h₁ with ⟨hf₁, hk₁⟩ | ⟨hu₁, hf₁, hw₁⟩
  · rcases h₂ with ⟨hf₂, hk₂⟩ | ⟨hu₂, hf₂, hw₂⟩
    · left
      rw [hs₁, hs₂, hk₁, hk₂, hsame]
    · right; right
      exact ⟨hu₂, he₂.trans hf₂, hs₂.trans hw₂, he₁.trans (hf₁.trans (hfin.trans hu₂)),
        hs₁.trans (hk₁.trans hsame)⟩
  · rcases h₂ with ⟨hf₂, hk₂⟩ | ⟨hu₂, hf₂, hw₂⟩
    · right; left
      exact ⟨hu₁, he₁.trans hf₁, hs₁.trans hw₁, he₂.trans (hf₂.trans (hfin.symm.trans hu₁)),
        hs₂.trans (hk₂.trans hsame.symm)⟩
    · left
      rw [hs₁, hs₂, hw₁, hw₂]

theorem marks_congr (h : c₁.protocolFields = c₂.protocolFields) : c₁.marks = c₂.marks :=
  congrArg (fun fields : ProtocolFields => Marks.mk fields.retransmission.sndUna fields.vmWindow
    fields.dupAckCount fields.fastRetransmitAck) h

theorem finAcknowledged_congr (h : c₁.protocolFields = c₂.protocolFields) :
    c₁.finAcknowledged = c₂.finAcknowledged := by
  have hfin : c₁.send.finSent = c₂.send.finSent := congrArg ProtocolFields.finSent h
  rw [finAcknowledged, finAcknowledged, hfin, retransmission_congr h]

theorem bothClosed_congr (h : c₁.protocolFields = c₂.protocolFields) :
    c₁.bothClosed = c₂.bothClosed := by
  have hrecv : c₁.recv = c₂.recv := congrArg ProtocolFields.recv h
  have hdone := finAcknowledged_congr h
  simp only [finAcknowledged] at hdone
  rw [bothClosed, bothClosed, Bool.and_assoc, Bool.and_assoc, hrecv, hdone]

/-- Payload and FIN, once the send loops have run. -/
theorem handleData_agree {a₁ a₂ e₁ e₂ : Conn} (hnot : c₁.state ≠ .closed)
    (hfields : c₁.protocolFields = c₂.protocolFields) (htwin : Twin c₁ c₂ a₁ a₂)
    (htrims₁ : Trims c₁ a₁) (htrims₂ : Trims c₂ a₂) (hbefore₁ : c₁.Sending cfg)
    (hbefore₂ : c₂.Sending cfg) (hadds₁ : ∃ new, Adds a₁ e₁ new) (hadds₂ : ∃ new, Adds a₂ e₂ new)
    (hlive₁ : Live cfg e₁) (hlive₂ : Live cfg e₂) (halike : Alike c₁ c₂ e₁ e₂)
    (hstep₁ : FinStep c₁ e₁) (hstep₂ : FinStep c₂ e₂) (hmarks : e₁.marks = e₂.marks)
    (hend : e₁.finAcknowledged = e₂.finAcknowledged)
    (hsink : turn₁.sinkAccepts = turn₂.sinkAccepts) (seg : VMSegment) :
    Agree c₁ c₂ (e₁.handleTCPData cfg turn₁ seg) (e₂.handleReverseTCPData cfg turn₂ seg) := by
  have h := handleData_processed cfg hsink halike.recv hlive₁.registered hlive₂.registered hend seg
  exact .of_stations hnot hfields htwin
    ⟨hbefore₁, htrims₁, hadds₁, hlive₁.sending, handleTCPData_onlyAnswers cfg turn₁ e₁ seg⟩
    ⟨hbefore₂, htrims₂, hadds₂, hlive₂.sending, handleReverseTCPData_onlyAnswers cfg turn₂ e₂ seg⟩
    (halike.trans h.alike) (h.marks₁.trans (hmarks.trans h.marks₂.symm))
    (finSteps_state (congrArg ProtocolFields.state hfields)
      (congrArg ProtocolFields.finSent hfields) hstep₁ hstep₂ h)

/-- The acknowledgement parts of the two handlers: the same status, and the same
fields afterwards. -/
theorem Live.noteAck_pair (h₁ : Live cfg c₁) (h₂ : Live cfg c₂)
    (hfields : c₁.protocolFields = c₂.protocolFields) (turn₁ turn₂ : Turn) (seg : VMSegment) :
    ∃ a₁ a₂ status windowChanged, c₁.noteAck cfg turn₁ seg = .ok (a₁, status, windowChanged) ∧
      c₂.noteAck cfg turn₂ seg = .ok (a₂, status, windowChanged) ∧
      Noted cfg c₁ seg status a₁ ∧ Noted cfg c₂ seg status a₂ ∧ Twin c₁ c₂ a₁ a₂ := by
  obtain ⟨a₁, status, windowChanged, hok₁, hn₁⟩ := h₁.noteAck turn₁ seg
  obtain ⟨a₂, hok₂, htwin⟩ := noteAck_twin hfields h₁.registered h₂.registered turn₂ hok₁
  obtain ⟨d, status', windowChanged', hok, hn₂⟩ := h₂.noteAck turn₂ seg
  obtain ⟨rfl, rfl, rfl⟩ := by simpa using hok₂.symm.trans hok
  exact ⟨a₁, a₂, status, windowChanged, hok₁, hok₂, hn₁, hn₂, htwin⟩

/-- The send loops leave what a segment of the VM decides as they find it. -/
theorem Pushes.marks_eq {a₁ a₂ e₁ e₂ : Conn} {windowChanged : Bool} (h₁ : Pushes cfg a₁ e₁)
    (h₂ : Pushes cfg a₂ e₂)
    (hcount₁ : e₁.send.dupAckCount = if windowChanged then 0 else a₁.send.dupAckCount)
    (hcount₂ : e₂.send.dupAckCount = if windowChanged then 0 else a₂.send.dupAckCount)
    (hmarks : a₁.marks = a₂.marks) : e₁.marks = e₂.marks := by
  obtain ⟨new₁, hadds₁⟩ := h₁.adds
  obtain ⟨new₂, hadds₂⟩ := h₂.adds
  have hdup : a₁.send.dupAckCount = a₂.send.dupAckCount := congrArg Marks.dupAckCount hmarks
  rw [marks, marks, hadds₁.sndUna, hadds₂.sndUna, hadds₁.vmWindow, hadds₂.vmWindow,
    h₁.fastRetransmitAck, h₂.fastRetransmitAck, hcount₁, hcount₂, hdup]
  exact congrArg (fun marks : Marks => { marks with
    dupAckCount := if windowChanged then 0 else a₂.send.dupAckCount }) hmarks

/-- The handlers in their parts, on two open connections with equal fields. -/
theorem handleParts_agree (h₁ : Live cfg c₁) (h₂ : Live cfg c₂) (hup₁ : Upright c₁)
    (hup₂ : Upright c₂) (hdir₁ : c₁.direction = .outbound) (hdir₂ : c₂.direction = .reverse)
    (hopen : c₁.state.isOpen = true) (hfields : c₁.protocolFields = c₂.protocolFields)
    (hbehind : c₂.send.finSent = true → c₂.send.sendQueue = [])
    (hsink : turn₁.sinkAccepts = turn₂.sinkAccepts) (seg : VMSegment) :
    ∃ d₁ d₂, c₁.handleParts cfg turn₁ (proceedTCP cfg turn₁) (handleTCPData cfg turn₁) seg =
        .ok d₁ ∧
      c₂.handleParts cfg turn₂ (proceedReverseTCP cfg turn₂) (handleReverseTCPData cfg turn₂) seg =
        .ok d₂ ∧ Agree c₁ c₂ d₁ d₂ := by
  have hstate : c₁.state = c₂.state := congrArg ProtocolFields.state hfields
  have hopen₂ : c₂.state.isOpen = true := by rwa [← hstate]
  have hnot : c₁.state ≠ .closed := fun he => by
    rw [he] at hopen
    cases hopen
  unfold handleParts
  by_cases hack : seg.ack = true
  swap
  · rw [if_pos (by simpa using hack), if_pos (by simpa using hack)]
    exact ⟨_, _, rfl, rfl, handleData_agree hnot hfields (.of_fields hfields rfl rfl)
      (Holds.refl c₁).trims (Holds.refl c₂).trims h₁.sending h₂.sending
      ⟨[], .refl h₁.sending.tracking⟩ ⟨[], .refl h₂.sending.tracking⟩ h₁ h₂
      ⟨congrArg ProtocolFields.recv hfields, [], .of_sent rfl, .of_sent rfl⟩ (.inl ⟨rfl, rfl⟩)
      (.inl ⟨rfl, rfl⟩) (marks_congr hfields) (finAcknowledged_congr hfields) hsink seg⟩
  rw [if_neg (by simp [hack]), if_neg (by simp [hack])]
  obtain ⟨a₁, a₂, status, windowChanged, hok₁, hok₂, hn₁, hn₂, htwin⟩ :=
    h₁.noteAck_pair h₂ hfields turn₁ turn₂ seg
  have htrims₁ := noteAck_trims h₁.sending h₁.registered hok₁
  have htrims₂ := noteAck_trims h₂.sending h₂.registered hok₂
  have hmarks := marks_congr htwin.fields
  have halike : Alike c₁ c₂ a₁ a₂ := ⟨congrArg ProtocolFields.recv htwin.fields, [],
    .of_sequences hn₁.sent, .of_sequences hn₂.sent⟩
  have hstays : a₁.state = a₂.state := congrArg ProtocolFields.state htwin.fields
  -- Where the send loop does not run, the handler stays at its first station.
  have hfirst : ∀ {d₁ d₂}, OnlyAnswers a₁ d₁ → OnlyAnswers a₂ d₂ → Alike c₁ c₂ d₁ d₂ →
      d₁.marks = d₂.marks → d₁.state = d₂.state → Agree c₁ c₂ d₁ d₂ := fun ho₁ ho₂ ha hm hs =>
    .of_stations hnot hfields htwin
      ⟨h₁.sending, htrims₁, ⟨[], .refl hn₁.ready.sending.tracking⟩, hn₁.ready.sending, ho₁⟩
      ⟨h₂.sending, htrims₂, ⟨[], .refl hn₂.ready.sending.tracking⟩, hn₂.ready.sending, ho₂⟩
      ha hm (.inl hs)
  rw [hok₁, hok₂]
  dsimp only
  by_cases hignored : status = .future ∨ status = .stale
  · rw [proceedTCP, proceedReverseTCP, if_pos hignored, if_pos hignored]
    exact ⟨a₁, a₂, rfl, rfl, hfirst ⟨.of_sent rfl, .inr rfl⟩ ⟨.of_sent rfl, .inr rfl⟩ halike hmarks
      hstays⟩
  obtain ⟨hclosed, hret⟩ | ⟨hgoes, e₁, hret, hlive₁, hpush₁, hcount₁⟩ :=
    proceedTCP_pushes hn₁ hdir₁ hopen hignored (fun hne => hn₁.stays hne hup₁.notBoth) turn₁
      windowChanged
  · obtain ⟨-, hret₂⟩ | ⟨hgoes₂, -⟩ :=
      proceedReverseTCP_pushes hn₂ hdir₂ hopen₂ hignored
        (fun hne => hn₂.stays hne hup₂.notBoth) turn₂ windowChanged
    swap
    · rw [← bothClosed_congr htwin.fields, hclosed] at hgoes₂
      cases hgoes₂
    have hfinished := finish_processed halike.recv hn₁.ready.registered hn₂.ready.registered
    rw [hret, hret₂]
    refine ⟨_, _, rfl, rfl, hfirst (finishTCPConnection_onlyAnswers a₁)
      (finishReverseConnection_onlyAnswers a₂) (halike.trans hfinished.alike)
      (hfinished.marks₁.trans (hmarks.trans hfinished.marks₂.symm)) ?_⟩
    exact hfinished.state.elim (fun hs => hs.1.trans (hstays.trans hs.2.symm)) id
  · obtain ⟨hclosed, -⟩ | ⟨-, e₂, hret₂, hlive₂, hpush₂, hcount₂⟩ :=
      proceedReverseTCP_pushes hn₂ hdir₂ hopen₂ hignored
        (fun hne => hn₂.stays hne hup₂.notBoth) turn₂ windowChanged
    · rw [← bothClosed_congr htwin.fields, hgoes] at hclosed
      cases hclosed
    have hend : e₁.finAcknowledged = e₂.finAcknowledged := by
      rw [hpush₁.finAcknowledged hn₁.ready.sending ?_, hpush₂.finAcknowledged hn₂.ready.sending ?_]
      · exact finAcknowledged_congr htwin.fields
      · rw [htrims₂.sendQueue, htrims₂.finSent]
        exact hbehind
      · rw [htrims₁.sendQueue, htrims₁.finSent]
        exact fun hsent => (h₁.toReady.nothing_left hdir₁ hsent).1
    have hstep₁ : FinStep c₁ a₁ := .inl ⟨htrims₁.finSent, hn₁.state⟩
    have hstep₂ : FinStep c₂ a₂ := .inl ⟨htrims₂.finSent, hn₂.state⟩
    have hmarks' : e₁.marks = e₂.marks := hpush₁.marks_eq hpush₂ hcount₁ hcount₂ hmarks
    rw [hret, hret₂]
    refine ⟨_, _, rfl, rfl, handleData_agree hnot hfields htwin htrims₁ htrims₂ h₁.sending
      h₂.sending hpush₁.adds hpush₂.adds hlive₁ hlive₂ (halike.trans ?_)
      (hstep₁.trans hpush₁.fin) (hstep₂.trans hpush₂.fin) hmarks' hend hsink seg⟩
    refine ⟨?_, [], .of_sequences hpush₁.sent, .of_sequences hpush₂.sent⟩
    rw [hpush₁.evolves.recv, hpush₂.evolves.recv]
    exact halike.recv

/-- The same text, sent on another connection. -/
def readdress (seg : VMSegment) (srcIP : IPv4) (srcPort : Port) (dstIP : IPv4) (dstPort : Port) :
    VMSegment :=
  { seg with srcIP, srcPort, dstIP, dstPort }

/-- Past their handshakes, and unless data are queued behind the FIN of the
reverse connection, the two handlers agree on the receiving side, on what they
repeat and keep of the stream, and on the end of the connection. -/
theorem handlers_agree (h₁ : Reachable cfg c₁) (h₂ : Reachable cfg c₂)
    (hreg₁ : c₁.registered = true) (hreg₂ : c₂.registered = true)
    (hdir₁ : c₁.direction = .outbound) (hdir₂ : c₂.direction = .reverse)
    (hpast : c₁.state ≠ .synSent) (hfields : c₁.protocolFields = c₂.protocolFields)
    (hbehind : c₂.send.finSent = true → c₂.send.sendQueue = [])
    (hsink : turn₁.sinkAccepts = turn₂.sinkAccepts) (hsyn : seg.syn = false)
    (hrst : seg.rst = false) (srcIP : IPv4) (srcPort : Port) (dstIP : IPv4) (dstPort : Port) :
    ∃ d₁ d₂, c₁.handle cfg turn₁ (.segment seg) = .ok d₁ ∧
      c₂.handle cfg turn₂ (.segment (readdress seg srcIP srcPort dstIP dstPort)) = .ok d₂ ∧
      Agree c₁ c₂ d₁ d₂ := by
  have hlive₂ : Live cfg c₂ := (h₂.inv hreg₂).resolve_right fun hfinished => by
    rw [hfinished.direction] at hdir₂
    cases hdir₂
  have hstate : c₁.state = c₂.state := congrArg ProtocolFields.state hfields
  have hcurrent₂ : c₂.Current := ⟨hreg₂, hlive₂.sending.notClosed⟩
  have hcurrent₁ : c₁.Current := ⟨hreg₁, fun he => hcurrent₂.2 (hstate.symm.trans he)⟩
  have hlive₁ := h₁.live hcurrent₁
  have hopen := hlive₁.isOpen hpast
  have hup₂ := h₂.upright hcurrent₂
  -- `bumpReverseConnActivity` touches no field of the protocol.
  have hbumped : Upright { c₂ with idleTimer := true } :=
    ⟨hup₂.notBoth, hup₂.closing, hup₂.handshake⟩
  obtain ⟨d₁, d₂, hd₁, hd₂, hagree⟩ := handleParts_agree hlive₁ (hlive₂.withIdleTimer true)
    (h₁.upright hcurrent₁) hbumped hdir₁ hdir₂ hopen hfields hbehind hsink seg
  have hopen₂ : c₂.state.isOpen = true := by rwa [← hstate]
  have hout : c₁.handleTCP cfg turn₁ seg = _ := handleTCP_eq hopen (by simp [hsyn]) hrst
  have hrev : c₂.handleReverseTCP cfg turn₂ seg = _ :=
    handleReverseTCP_eq hopen₂ (by simp [hsyn]) hrst
  refine ⟨d₁, d₂, ?_, ?_, hagree.recv, hagree.answers, hagree.marks, hagree.kept, hagree.repeats,
    hagree.finished, hagree.state⟩
  · change c₁.onSegment cfg turn₁ seg = .ok d₁
    rw [onSegment, hdir₁]
    exact hout.trans hd₁
  · change c₂.onSegment cfg turn₂ (readdress seg srcIP srcPort dstIP dstPort) = .ok d₂
    rw [onSegment, hdir₂]
    exact hrev.trans hd₂

/-- The acknowledgement of the handshake, advertising `window`. -/
def exampleUpdate (window : BitVec 16) : VMSegment where
  seqNum := 100#32
  ackNum := 8#32
  ack := true
  window := window
  payload_fits := exampleSynAck.payload_fits

/-- Other connections have used up the session's budget of a whole window. -/
def usedUp : SlidingWindowRateLimiter :=
  { maxBytes := 1048576
    windowMs := 1000
    entries := [⟨0, 1048576⟩]
    totalBytes := 1048576 }

/-- The endpoint sends three bytes and ends while the WebSocket is backed up. -/
def exampleHeld : List (Turn × Event) :=
  [({}, .segment (exampleUpdate 1000)), ({}, .otherTraffic usedUp),
    ({ bufferedAmount := fun _ => 40000 }, .sourceData [1, 2, 3]),
    ({ bufferedAmount := fun _ => 40000 }, .sourceEnd)]

/-- With its FIN on the way the connection meets a closed window. -/
def exampleShut (label : Turn × Event) : List (Turn × Event) :=
  [({}, .segment (exampleUpdate 1000)), label, ({}, .segment (exampleUpdate 0))]

/-- The VM acknowledges that FIN and sends its own. -/
def exampleBye : VMSegment where
  seqNum := 100#32
  ackNum := 9#32
  ack := true
  fin := true
  window := 1000#16
  payload_fits := exampleSynAck.payload_fits

instance (c c' d' : Conn) : Decidable (OnlySendsFin c c' d') := inferInstanceAs (Decidable (_ ∧ _))

/-- An outbound and a reverse connection that can be computed, with property
`p`. -/
theorem exists_pair (outbound reverse : List (Turn × Event)) (p : Conn → Conn → Bool)
    (h : (exampleOutbound.execute {} (fun _ _ => True) outbound).any (fun c₁ =>
      (exampleReverse.execute {} (fun _ _ => True) (({}, .segment exampleSynAck) :: reverse)).any
        (p c₁)) = true) :
    ∃ c₁ c₂, Reachable {} c₁ ∧ Reachable {} c₂ ∧ p c₁ c₂ = true := by
  obtain ⟨c₁, hrun₁, hp₁⟩ := exists_run {} exampleOutbound outbound _ h
  obtain ⟨c₂, hrun₂, hp₂⟩ := exists_run {} exampleReverse _ (p c₁) hp₁
  exact ⟨c₁, c₂, ⟨exampleOutbound, opened_exampleOutbound, _, hrun₁⟩,
    ⟨exampleReverse, opened_exampleReverse, _, hrun₂⟩, hp₂⟩

/-- The connections a segment is handed to in order to compare the handlers:
both held, one of each direction, and past the handshake. -/
def Comparable (c₁ c₂ : Conn) : Prop :=
  (c₁.registered = true ∧ c₂.registered = true) ∧ (c₁.direction = .outbound ∧
    c₂.direction = .reverse) ∧ c₁.state ≠ .synSent ∧ c₁.protocolFields = c₂.protocolFields

instance (c₁ c₂ : Conn) : Decidable (Comparable c₁ c₂) := inferInstanceAs (Decidable (_ ∧ _))

/-- The states in which the handlers leave two connections, where neither
throws. -/
def statesAfter (cfg : Settings) (seg : VMSegment) (c₁ c₂ : Conn) :
    Option (ConnState × ConnState) :=
  match c₁.handle cfg {} (.segment seg), c₂.handle cfg {} (.segment (readdress seg 0 0 0 0)) with
  | .ok d₁, .ok d₂ => some (d₁.state, d₂.state)
  | _, _ => none

/-- Both connections hold bytes and a FIN when the window changes. -/
theorem handlers_agree_held :
    ∃ c₁ c₂ d₁ d₂ : Conn, c₁.send.sendQueue = [[1, 2, 3]] ∧
      c₁.handle {} {} (.segment (exampleUpdate 2000)) = .ok d₁ ∧
      c₂.handle {} {} (.segment (readdress (exampleUpdate 2000) 0 0 0 0)) = .ok d₂ ∧
      Agree c₁ c₂ d₁ d₂ := by
  obtain ⟨c₁, c₂, h₁, h₂, hp⟩ := exists_pair exampleHeld exampleHeld (fun c₁ c₂ =>
    decide (Comparable c₁ c₂ ∧ c₂.send.finSent = false ∧ c₁.send.sendQueue = [[1, 2, 3]]))
    (by decide +kernel)
  obtain ⟨⟨⟨hreg₁, hreg₂⟩, ⟨hdir₁, hdir₂⟩, hpast, hfields⟩, hunsent, hqueue⟩ := of_decide_eq_true hp
  have hbehind : c₂.send.finSent = true → c₂.send.sendQueue = [] := fun hsent =>
    absurd (hunsent.symm.trans hsent) Bool.false_ne_true
  obtain ⟨d₁, d₂, hd₁, hd₂, hagree⟩ := @handlers_agree {} {} {} c₁ c₂ (exampleUpdate 2000) h₁ h₂
    hreg₁ hreg₂ hdir₁ hdir₂ hpast hfields hbehind rfl rfl rfl 0 0 0 0
  exact ⟨c₁, c₂, d₁, d₂, hqueue, hd₁, hd₂, hagree⟩

/-- With equal sending sides, the rate limiter keeps the outbound connection
from sending its FIN. With data behind the FIN of the reverse connection, the
outbound one finishes alone. -/
theorem handlers_disagree :
    (∃ c₁ c₂ : Conn, Reachable {} c₁ ∧ Reachable {} c₂ ∧ Comparable c₁ c₂ ∧ c₁.send = c₂.send ∧
      statesAfter {} (exampleUpdate 2000) c₁ c₂ = some (.established, .finWait)) ∧
    ∃ c₁ c₂ : Conn, Reachable {} c₁ ∧ Reachable {} c₂ ∧ Comparable c₁ c₂ ∧
      statesAfter {} exampleBye c₁ c₂ = some (.closed, .closing) := by
  constructor
  · obtain ⟨c₁, c₂, h₁, h₂, hp⟩ := exists_pair exampleHeld exampleHeld (fun c₁ c₂ =>
      decide (Comparable c₁ c₂ ∧ c₁.send = c₂.send ∧
        statesAfter {} (exampleUpdate 2000) c₁ c₂ = some (.established, .finWait))) (by decide +kernel)
    exact ⟨c₁, c₂, h₁, h₂, of_decide_eq_true hp⟩
  · obtain ⟨c₁, c₂, h₁, h₂, hp⟩ := exists_pair (exampleShut ({}, .sourceEnd))
      (exampleShut ({}, .localClose) ++ [(({} : Turn), .sourceData [1])]) (fun c₁ c₂ =>
      decide (Comparable c₁ c₂ ∧ statesAfter {} exampleBye c₁ c₂ = some (.closed, .closing)))
      (by decide +kernel)
    exact ⟨c₁, c₂, h₁, h₂, of_decide_eq_true hp⟩

end Conn

end RootlessRelay
