import RootlessRelay.Tcp.Ack

/-!
# What receiving does to a connection

Taking payload from the VM leaves the sending side alone (`Passive`): it moves
the receiving side and sends acknowledgements. On the receiving side the two
handlers agree although they are written differently: both are `receivePayload`
up to the bookkeeping of delayed acknowledgements, which `ReceiveCore` leaves
out.

The outbound handler compares before it trims and moves `vmSeq` before it
writes, and the reverse handler does it the other way round. Writing and moving
commute, and the comparisons come to the same three cases, so everything about
payload is proved once, for `receivePayload`.
-/

namespace RootlessRelay

/-- The receiving side without the delayed-acknowledgement fields. -/
structure ReceiveCore extends Reassembly where
  receiveBackpressured : Bool
  peerFin : Bool
  sink : Sink
  accepted : Bytes
  deriving DecidableEq

/-- The part of the receiving side on which the two handlers agree. -/
def ReceiveSide.core (recv : ReceiveSide) : ReceiveCore where
  toReassembly := recv.toReassembly
  receiveBackpressured := recv.receiveBackpressured
  peerFin := recv.peerFin
  sink := recv.sink
  accepted := recv.accepted

/-- What has been taken from the VM, without the state of the sink. -/
structure Delivered extends Reassembly where
  peerFin : Bool
  written : List Bytes
  accepted : Bytes
  deriving DecidableEq

/-- The part of it that the stream of the VM determines. -/
def ReceiveCore.delivered (recv : ReceiveCore) : Delivered where
  toReassembly := recv.toReassembly
  peerFin := recv.peerFin
  written := recv.sink.written
  accepted := recv.accepted

namespace Conn

variable (cfg : Settings) (turn : Turn)

/-- Nothing with payload is sent; acknowledgements and resets may be. -/
def Silent (c c' : Conn) : Prop :=
  ∃ wires, c'.sent = c.sent ++ wires ∧ ∀ wire ∈ wires, wire.payload = []

theorem Silent.of_eq {c c' : Conn} (h : c'.sent = c.sent) : Silent c c' :=
  ⟨[], by rw [h, List.append_nil], by simp⟩

/-- Only the receiving side changes, and nothing with payload is sent. -/
structure Passive (c c' : Conn) : Prop where
  send : c'.send = c.send
  state : c'.state = c.state
  registered : c'.registered = c.registered
  direction : c'.direction = c.direction
  tx : c'.tx = c.tx
  idleTimer : c'.idleTimer = c.idleTimer
  silent : Silent c c'

variable {cfg turn} {c c' c'' : Conn}

namespace Passive

theorem refl (c : Conn) : Passive c c := ⟨rfl, rfl, rfl, rfl, rfl, rfl, [], by simp⟩

theorem trans (h : Passive c c') (h' : Passive c' c'') : Passive c c'' := by
  obtain ⟨wires, hsent, hsilent⟩ := h.silent
  obtain ⟨wires', hsent', hsilent'⟩ := h'.silent
  refine ⟨h'.send.trans h.send, h'.state.trans h.state, h'.registered.trans h.registered,
    h'.direction.trans h.direction, h'.tx.trans h.tx, h'.idleTimer.trans h.idleTimer,
    wires ++ wires', ?_, ?_⟩
  · rw [hsent', hsent, List.append_assoc]
  · intro wire hmem
    exact (List.mem_append.mp hmem).elim (hsilent wire) (hsilent' wire)

theorem withRecv (c : Conn) (recv : ReceiveSide) : Passive c { c with recv } :=
  ⟨rfl, rfl, rfl, rfl, rfl, rfl, [], by simp⟩

theorem emit (c : Conn) {wires : List WireSegment} (h : ∀ wire ∈ wires, wire.payload = []) :
    Passive c (c.emit wires) :=
  ⟨rfl, rfl, rfl, rfl, rfl, rfl, wires, rfl, h⟩

end Passive

theorem sendTCPAck_passive (cfg : Settings) (c : Conn) : Passive c (c.sendTCPAck cfg) := by
  rw [sendTCPAck_eq]
  exact (Passive.withRecv c _).trans (Passive.emit _ (by simp))

@[simp] theorem sendTCPAck_core (cfg : Settings) (c : Conn) :
    (c.sendTCPAck cfg).recv.core = c.recv.core := by
  rw [sendTCPAck_eq]
  rfl

theorem scheduleTCPAck_passive (cfg : Settings) (c : Conn) (segments : Nat) (immediate : Bool) :
    Passive c (c.scheduleTCPAck cfg segments immediate) := by
  unfold scheduleTCPAck
  dsimp only
  split
  · exact (Passive.withRecv c _).trans (sendTCPAck_passive cfg _)
  · exact Passive.withRecv c _

@[simp] theorem scheduleTCPAck_core (cfg : Settings) (c : Conn) (segments : Nat) (immediate : Bool) :
    (c.scheduleTCPAck cfg segments immediate).recv.core = c.recv.core := by
  unfold scheduleTCPAck
  dsimp only
  split
  · rw [sendTCPAck_core]
    rfl
  · rfl

theorem fireAckTimer_passive (cfg : Settings) (c : Conn) : Passive c (c.fireAckTimer cfg) := by
  unfold fireAckTimer
  dsimp only
  split
  · exact (Passive.withRecv c _).trans (sendTCPAck_passive cfg _)
  · exact Passive.withRecv c _

@[simp] theorem fireAckTimer_core (cfg : Settings) (c : Conn) :
    (c.fireAckTimer cfg).recv.core = c.recv.core := by
  unfold fireAckTimer
  dsimp only
  split
  · rw [sendTCPAck_core]
    rfl
  · rfl

theorem onTCPReceiveDrain_passive (cfg : Settings) (c : Conn) : Passive c (c.onTCPReceiveDrain cfg) := by
  unfold onTCPReceiveDrain
  split
  · exact .refl c
  · exact (Passive.withRecv c _).trans (scheduleTCPAck_passive cfg _ _ _)

theorem onTCPReceiveDrain_delivered (cfg : Settings) (c : Conn) :
    (c.onTCPReceiveDrain cfg).recv.core.delivered = c.recv.core.delivered ∧
      (c.onTCPReceiveDrain cfg).recv.core.sink = c.recv.core.sink := by
  unfold onTCPReceiveDrain
  split
  · exact ⟨rfl, rfl⟩
  · rw [scheduleTCPAck_core]
    exact ⟨rfl, rfl⟩

/-- In-order payload, on the receiving side alone: taken, written, and followed
by what it connects to. -/
def acceptPayload (turn : Turn) (recv : ReceiveSide) (payload : Bytes) : ReceiveSide × Nat :=
  drainReceived turn (writeReceived turn
    (advanceOver recv (recv.vmSeq + BitVec.ofNat 32 payload.length) payload) payload)

/-- What both handlers do with the payload of a segment, and whether they return
before the FIN. -/
def receivePayload (cfg : Settings) (turn : Turn) (recv : ReceiveSide) (seqNum : Seq)
    (payload : Bytes) : ReceiveSide × Bool :=
  if payload.length = 0 then (recv, false)
  else if seqLessThan seqNum recv.vmSeq then
    let alreadyHave := seqDiff recv.vmSeq seqNum
    if alreadyHave ≥ payload.length then (recv, true)
    else ((acceptPayload turn recv (payload.drop alreadyHave)).1, false)
  else if seqNum = recv.vmSeq then ((acceptPayload turn recv payload).1, false)
  else (bufferReceived cfg recv seqNum payload, true)

theorem not_seqLessThan_self (a : Seq) : seqLessThan a a = false := by
  simp [seqLessThan]

theorem forwardTCP_spec (cfg : Settings) (turn : Turn) (c : Conn) (payload : Bytes) :
    Passive c (c.forwardTCP cfg turn payload) ∧
      (c.forwardTCP cfg turn payload).recv.core =
        (drainReceived turn (writeReceived turn c.recv payload)).1.core := by
  unfold forwardTCP
  dsimp only
  exact ⟨(Passive.withRecv c _).trans (scheduleTCPAck_passive cfg _ _ _), scheduleTCPAck_core cfg _ _ _⟩

/-- The payload part of the outbound handler is `receivePayload`, and it touches
nothing else. -/
theorem handleTCPPayload_spec (cfg : Settings) (turn : Turn) (c : Conn) (seg : VMSegment) :
    Passive c (c.handleTCPPayload cfg turn seg).1 ∧
      (c.handleTCPPayload cfg turn seg).1.recv.core =
        (receivePayload cfg turn c.recv seg.seqNum seg.payload).1.core ∧
      (c.handleTCPPayload cfg turn seg).2 =
        (receivePayload cfg turn c.recv seg.seqNum seg.payload).2 := by
  unfold handleTCPPayload receivePayload
  dsimp only
  by_cases hempty : seg.payload.length = 0
  · rw [if_pos hempty, if_pos hempty]
    exact ⟨.refl c, rfl, rfl⟩
  rw [if_neg hempty, if_neg hempty]
  by_cases heq : seg.seqNum = c.recv.vmSeq
  · rw [if_pos heq, heq, not_seqLessThan_self, if_neg Bool.false_ne_true, if_pos rfl]
    obtain ⟨hp, hcore⟩ := forwardTCP_spec cfg turn { c with
      recv := advanceOver c.recv (c.recv.vmSeq + BitVec.ofNat 32 seg.payload.length) seg.payload }
      seg.payload
    exact ⟨(Passive.withRecv c _).trans hp, hcore, rfl⟩
  rw [if_neg heq]
  by_cases hold : seqLessThan seg.seqNum c.recv.vmSeq = true
  · rw [if_pos hold, if_pos hold]
    split
    · exact ⟨scheduleTCPAck_passive cfg c 0 true, scheduleTCPAck_core cfg c 0 true, rfl⟩
    · obtain ⟨hp, hcore⟩ := forwardTCP_spec cfg turn { c with
        recv := advanceOver c.recv (c.recv.vmSeq + BitVec.ofNat 32
          (seg.payload.drop (seqDiff c.recv.vmSeq seg.seqNum)).length)
          (seg.payload.drop (seqDiff c.recv.vmSeq seg.seqNum)) }
        (seg.payload.drop (seqDiff c.recv.vmSeq seg.seqNum))
      exact ⟨(Passive.withRecv c _).trans hp, hcore, rfl⟩
  · rw [if_neg hold, if_neg hold, if_neg heq]
    dsimp only
    exact ⟨(Passive.withRecv c _).trans (scheduleTCPAck_passive cfg _ _ _), scheduleTCPAck_core cfg _ _ _,
      rfl⟩

/-- A number that is neither behind nor equal is ahead: the three cases of a
segment. -/
theorem seqLessThan_of_ne {a b : Seq} (hne : a ≠ b) (hnot : seqLessThan a b = false) :
    seqLessThan b a = true := by
  have hsum := SequenceSpace.distance_add_distance hne
  simp only [seqLessThan, decide_eq_false_iff_not, decide_eq_true_eq] at hnot ⊢
  simp only [SequenceSpace.distance] at hsum
  omega

/-- Writing before or after `vmSeq` moves makes no difference. -/
theorem writeReceived_advanceOver (recv : ReceiveSide) (vmSeq : Seq) (payload : Bytes) :
    advanceOver (writeReceived turn recv payload) vmSeq payload =
      writeReceived turn (advanceOver recv vmSeq payload) payload := by
  unfold writeReceived advanceOver
  split <;> rfl

theorem writeReceived_vmSeq (recv : ReceiveSide) (payload : Bytes) :
    (writeReceived turn recv payload).vmSeq = recv.vmSeq := by
  unfold writeReceived
  split <;> rfl

/-- So is that of the reverse handler, although it writes before it moves
`vmSeq`. -/
theorem handleReverseTCPPayload_spec (cfg : Settings) (turn : Turn) (c : Conn)
    (seg : VMSegment) :
    Passive c (c.handleReverseTCPPayload cfg turn seg).1 ∧
      (c.handleReverseTCPPayload cfg turn seg).1.recv.core =
        (receivePayload cfg turn c.recv seg.seqNum seg.payload).1.core ∧
      (c.handleReverseTCPPayload cfg turn seg).2 =
        (receivePayload cfg turn c.recv seg.seqNum seg.payload).2 := by
  unfold handleReverseTCPPayload receivePayload
  dsimp only
  by_cases hempty : seg.payload.length = 0
  · rw [if_pos hempty, if_pos hempty]
    exact ⟨.refl c, rfl, rfl⟩
  rw [if_neg hempty, if_neg hempty]
  by_cases hold : seqLessThan seg.seqNum c.recv.vmSeq = true
  · simp only [hold, Bool.true_and, decide_eq_true_eq, if_true, not_seqLessThan_self,
      Bool.false_eq_true, if_false]
    split
    · exact ⟨scheduleTCPAck_passive cfg c 0 true, scheduleTCPAck_core cfg c 0 true, rfl⟩
    · refine ⟨(Passive.withRecv c _).trans (scheduleTCPAck_passive cfg _ _ _), ?_, rfl⟩
      rw [scheduleTCPAck_core, writeReceived_advanceOver, writeReceived_vmSeq]
      rfl
  · have hnew : seqLessThan seg.seqNum c.recv.vmSeq = false := by simpa using hold
    simp only [hnew, Bool.false_and, Bool.false_eq_true, if_false]
    by_cases heq : seg.seqNum = c.recv.vmSeq
    · simp only [heq, not_seqLessThan_self, Bool.false_eq_true, if_false, if_true]
      refine ⟨(Passive.withRecv c _).trans (scheduleTCPAck_passive cfg _ _ _), ?_, trivial⟩
      rw [scheduleTCPAck_core, writeReceived_advanceOver, writeReceived_vmSeq]
      rfl
    · simp only [seqLessThan_of_ne heq hnew, if_true, heq, if_false]
      exact ⟨(Passive.withRecv c _).trans (scheduleTCPAck_passive cfg _ _ _),
        scheduleTCPAck_core cfg _ _ _, trivial⟩

end Conn

end RootlessRelay
