import RootlessRelay.Tcp.Send

/-!
# Segments from the VM

`handleTCP` and `handleReverseTCP` for a segment whose key belongs to an existing
connection. Each handler is cut at the comments of the source into its
acknowledgement, payload and FIN parts; the returned Boolean of a part says that
the handler returns there. The two handlers order their steps differently and are
kept apart.
-/

namespace RootlessRelay

namespace Conn

variable (cfg : Settings) (turn : Turn)

/-- The queue's method, on the connection that owns it. An exception of the
queue leaves the connection as it is. -/
def acknowledge (c : Conn) (ackNum : Seq) : Outcome (Conn × AckResult) :=
  match c.send.retransmission.acknowledge ackNum with
  | .error error => .error ⟨.queue error, c⟩
  | .ok (q, result) =>
    let before := c.send.retransmission.items
    .ok ({ c with send := { c.send with
      retransmission := q
      acknowledged := c.send.acknowledged ++ before.take (before.length - q.items.length) } },
      result)

/-- An acknowledgement that advanced `sndUna`: duplicates are counted anew, and
congestion control is told. -/
def noteAdvancedAck (c : Conn) (ackedDataBytes : Nat) (ackNum : Seq) : Conn :=
  ({ c with send := { c.send with
    dupAckCount := 0
    fastRetransmitAck := none
    vmLastAck := c.send.retransmission.sndUna } }).onTCPCongestionAck cfg ackedDataBytes ackNum

/-- The duplicate-ACK test of both handlers: nothing new in the segment, and
something outstanding. -/
def isDuplicateAck (c : Conn) (seg : VMSegment) (windowChanged : Bool) : Bool :=
  decide (c.send.vmWindow > 0) && !windowChanged && !seg.syn && !seg.fin && seg.payload.isEmpty &&
    c.send.retransmission.hasOutstanding

/-- A duplicate acknowledgement; the third one triggers a fast retransmission. -/
def noteDuplicateAck (c : Conn) (ackNum : Seq) : Conn :=
  let dupAckCount := c.send.dupAckCount + 1
  let c := { c with send := { c.send with dupAckCount } }
  if dupAckCount = 3 then
    let c := if c.send.fastRetransmitAck ≠ some ackNum then c.fastRetransmit cfg turn else c
    { c with send := { c.send with dupAckCount := 0 } }
  else c

/-- `conn.peerFin && conn.finSent && !conn.retransmission.hasOutstanding`. -/
def bothClosed (c : Conn) : Bool :=
  c.recv.peerFin && c.send.finSent && !c.send.retransmission.hasOutstanding

/-- `writeTCPReceiveData`: a sink that has been ended takes nothing any more. -/
def writeReceived (turn : Turn) (recv : ReceiveSide) (payload : Bytes) : ReceiveSide :=
  if !recv.sink.writable then recv
  else
    { recv with
      receiveBackpressured :=
        recv.receiveBackpressured || !turn.sinkAccepts recv.sink.written.length
      sink := { recv.sink with written := recv.sink.written ++ [payload] } }

/-- Advance `vmSeq` over payload, which counts as accepted from then on. -/
def advanceOver (recv : ReceiveSide) (vmSeq : Seq) (payload : Bytes) : ReceiveSide :=
  { recv with vmSeq, accepted := recv.accepted ++ payload }

/-- `drainTCPOutOfOrder` with the handlers' write callback. The bytes it hands
to the callback are the bytes it advances over. -/
def drainReceived (recv : ReceiveSide) : ReceiveSide × Nat :=
  let (reassembly, (recv, accepted), delivered) := drainTCPOutOfOrder
    (fun (state : ReceiveSide × Bytes) buffered =>
      (writeReceived turn state.1 buffered, state.2 ++ buffered))
    recv.toReassembly (recv, [])
  ({ recv with toReassembly := reassembly, accepted := recv.accepted ++ accepted }, delivered)

/-- Keep a segment that lies beyond `vmSeq`, unless the sink is backpressured. -/
def bufferReceived (recv : ReceiveSide) (sequence : Seq) (payload : Bytes) : ReceiveSide :=
  if recv.receiveBackpressured then recv
  else
    { recv with
      toReassembly :=
        bufferTCPOutOfOrder recv.toReassembly sequence payload cfg.receiveCapacity }

/-- Forward in-order payload of an outbound connection: `vmSeq` has moved, and
what waited behind it may follow. -/
def forwardTCP (c : Conn) (payload : Bytes) : Conn :=
  let (recv, delivered) := drainReceived turn (writeReceived turn c.recv payload)
  ({ c with recv }).scheduleTCPAck cfg (1 + delivered) false

/-- The payload part of `handleTCP`, by how the segment lies to `vmSeq`. The
Boolean says that the handler returns. -/
def handleTCPPayload (c : Conn) (seg : VMSegment) : Conn × Bool :=
  let expected := c.recv.vmSeq
  if seg.payload.length = 0 then (c, false)
  else if seg.seqNum = expected then
    let vmSeq := seg.seqNum + BitVec.ofNat 32 seg.payload.length
    let recv := advanceOver c.recv vmSeq seg.payload
    (({ c with recv }).forwardTCP cfg turn seg.payload, false)
  else if seqLessThan seg.seqNum expected then
    let alreadyHave := seqDiff expected seg.seqNum
    if alreadyHave ≥ seg.payload.length then (c.scheduleTCPAck cfg 0 true, true)
    else
      let effectivePayload := seg.payload.drop alreadyHave
      let vmSeq := expected + BitVec.ofNat 32 effectivePayload.length
      let recv := advanceOver c.recv vmSeq effectivePayload
      (({ c with recv }).forwardTCP cfg turn effectivePayload, false)
  else
    let recv := bufferReceived cfg c.recv seg.seqNum seg.payload
    (({ c with recv }).scheduleTCPAck cfg 0 true, true)

/-- The payload part of `handleReverseTCP`: trim first, compare afterwards, and
write before `vmSeq` moves. -/
def handleReverseTCPPayload (c : Conn) (seg : VMSegment) : Conn × Bool :=
  if seg.payload.length = 0 then (c, false)
  else
    let old := seqLessThan seg.seqNum c.recv.vmSeq
    let alreadyHave := seqDiff c.recv.vmSeq seg.seqNum
    if old && decide (alreadyHave ≥ seg.payload.length) then (c.scheduleTCPAck cfg 0 true, true)
    else
      let effectivePayload := if old then seg.payload.drop alreadyHave else seg.payload
      let effectiveSeq := if old then c.recv.vmSeq else seg.seqNum
      if seqLessThan c.recv.vmSeq effectiveSeq then
        let recv := bufferReceived cfg c.recv effectiveSeq effectivePayload
        (({ c with recv }).scheduleTCPAck cfg 0 true, true)
      else
        let recv := writeReceived turn c.recv effectivePayload
        let recv := advanceOver recv
          (recv.vmSeq + BitVec.ofNat 32 effectivePayload.length) effectivePayload
        let (recv, delivered) := drainReceived turn recv
        (({ c with recv }).scheduleTCPAck cfg (1 + delivered) false, false)

/-- `vmSeq` moves over the VM's FIN, which takes up a number. -/
def passFin (recv : ReceiveSide) : ReceiveSide := { recv with vmSeq := recv.vmSeq + 1 }

/-- The VM has finished: end the sink, behind all payload. -/
def endSink (recv : ReceiveSide) : ReceiveSide :=
  { recv with peerFin := true, sink := { recv.sink with writable := false, ended := true } }

/-- The FIN part of `handleTCP`. A FIN that is not in sequence is acknowledged
and otherwise ignored. -/
def handleTCPFin (c : Conn) (seg : VMSegment) : Conn :=
  if !seg.fin then c
  else if seg.seqNum + BitVec.ofNat 32 seg.payload.length ≠ c.recv.vmSeq then
    c.scheduleTCPAck cfg 0 true
  else
    let c := ({ c with recv := passFin c.recv }).scheduleTCPAck cfg 0 true
    let c := { c with state := .closing, recv := endSink c.recv }
    if c.send.finSent && !c.send.retransmission.hasOutstanding then c.finishTCPConnection else c

/-- The FIN part of `handleReverseTCP`, which ends the sink before it
acknowledges. -/
def handleReverseTCPFin (c : Conn) (seg : VMSegment) : Conn :=
  if !seg.fin then c
  else if seg.seqNum + BitVec.ofNat 32 seg.payload.length ≠ c.recv.vmSeq then
    c.scheduleTCPAck cfg 0 true
  else
    let c := { c with state := .closing, recv := endSink (passFin c.recv) }
    let c := c.scheduleTCPAck cfg 0 true
    if c.send.finSent && !c.send.retransmission.hasOutstanding then c.finishReverseConnection else c

/-- The payload and FIN parts of `handleTCP`, in this order. -/
def handleTCPData (c : Conn) (seg : VMSegment) : Conn :=
  let (c, done) := c.handleTCPPayload cfg turn seg
  if done then c else c.handleTCPFin cfg seg

/-- The part after the acknowledgement and the handshake. `progress` says that
the acknowledgement advanced or the window changed. -/
def handleTCPEstablished (c : Conn) (seg : VMSegment) (progress windowChanged : Bool) :
    Outcome Conn :=
  if !c.state.isOpen then .ok c
  else if progress && c.bothClosed then .ok c.finishTCPConnection
  else
    match (if progress then
        (if windowChanged then { c with send := { c.send with dupAckCount := 0 } } else c).trySendToVM
          cfg turn
      else .ok c) with
    | .error thrown => .error thrown
    | .ok c => .ok (c.handleTCPData cfg turn seg)

/-- Complete the handshake when the SYN-ACK is acknowledged, finish when both
sides are done, and send what may be sent. -/
def handleTCPState (c : Conn) (seg : VMSegment) (status : Option AckStatus)
    (windowChanged : Bool) : Outcome Conn :=
  let progress := status = some .advanced || windowChanged
  if c.state = .synSent then
    if status ≠ some .advanced || c.send.retransmission.hasOutstanding then .ok c
    else
      (({ c with state := .established }).sendTCPAck cfg).handleTCPEstablished cfg turn seg progress
        windowChanged
  else c.handleTCPEstablished cfg turn seg progress windowChanged

/-- `handleTCP` for an existing connection. A repeated SYN asks for the SYN-ACK
again, and an RST ends it. -/
def handleTCP (c : Conn) (seg : VMSegment) : Outcome Conn :=
  if seg.syn && !seg.ack then .ok (if c.state = .synSent then c.fastRetransmit cfg turn else c)
  else if seg.rst then .ok (c.abortTCPConnection cfg turn false)
  else if !seg.ack then c.handleTCPState cfg turn seg none false
  else
    match c.acknowledge seg.ackNum with
    | .error thrown => .error thrown
    | .ok (c, result) =>
      if result.status = .future ∨ result.status = .stale then .ok c
      else
        let (c, windowChanged) := c.updateTCPWindow seg.seqNum seg.ackNum seg.window.toNat
        let c :=
          if result.status = .advanced then c.noteAdvancedAck cfg result.ackedDataBytes seg.ackNum
          else if c.isDuplicateAck seg windowChanged then c.noteDuplicateAck cfg turn seg.ackNum
          else c
        c.handleTCPState cfg turn seg (some result.status) windowChanged

/-- The SYN-ACK of a reverse connection that is still in `SYN_SENT`. -/
def handleReverseSynAck (c : Conn) (seg : VMSegment) : Outcome Conn :=
  match c.acknowledge seg.ackNum with
  | .error thrown => .error thrown
  | .ok (c, result) =>
    if result.status ≠ .advanced ∨ c.send.retransmission.hasOutstanding then .ok c
    else
      let c := { c with
        state := .established
        recv := { c.recv with vmSeq := seg.seqNum + 1 }
        send := { c.send with
          vmLastAck := c.send.retransmission.sndUna
          vmWindow := seg.window.toNat
          sendMss := min cfg.TCP_MSS (match seg.mss with
            | some mss => if mss = 0 then TCP_FALLBACK_MSS else mss
            | none => TCP_FALLBACK_MSS) } }
      (c.sendTCPAck cfg).trySendReverseToVM cfg turn

/-- The payload and FIN parts of `handleReverseTCP`, in this order. -/
def handleReverseTCPData (c : Conn) (seg : VMSegment) : Conn :=
  let (c, done) := c.handleReverseTCPPayload cfg turn seg
  if done then c else c.handleReverseTCPFin cfg seg

/-- The acknowledgement part of `handleReverseTCP`; `none` when the handler
returns inside it. -/
def handleReverseTCPAck (c : Conn) (seg : VMSegment) : Outcome (Conn × Bool) :=
  match c.acknowledge seg.ackNum with
  | .error thrown => .error thrown
  | .ok (c, result) =>
    if result.status = .future ∨ result.status = .stale then .ok (c, true)
    else
      let (c, windowChanged) := c.updateTCPWindow seg.seqNum seg.ackNum seg.window.toNat
      match (if result.status = .advanced then
          let c := c.noteAdvancedAck cfg result.ackedDataBytes seg.ackNum
          if c.bothClosed then .ok (c.finishReverseConnection, true)
          else (c.trySendReverseToVM cfg turn).map fun c => (c, false)
        else if c.isDuplicateAck seg windowChanged then
          .ok (c.noteDuplicateAck cfg turn seg.ackNum, false)
        else .ok (c, false)) with
      | .error thrown => .error thrown
      | .ok (c, true) => .ok (c, true)
      | .ok (c, false) =>
        if windowChanged then
          (({ c with send := { c.send with dupAckCount := 0 } }).trySendReverseToVM cfg turn).map
            fun c => (c, false)
        else .ok (c, false)

/-- `handleReverseTCP` from the lookup of an existing connection on. The idle
timer is restarted by `bumpReverseConnActivity`. -/
def handleReverseTCP (c : Conn) (seg : VMSegment) : Outcome Conn :=
  let c := { c with idleTimer := true }
  if seg.rst then .ok (c.abortReverseConnection cfg turn false)
  else if c.state = .synSent then
    if seg.syn && seg.ack then c.handleReverseSynAck cfg turn seg else .ok c
  else if seg.syn && seg.ack then .ok (c.sendTCPAck cfg)
  else if !c.state.isOpen then .ok c
  else if !seg.ack then .ok (c.handleReverseTCPData cfg turn seg)
  else
    match c.handleReverseTCPAck cfg turn seg with
    | .error thrown => .error thrown
    | .ok (c, true) => .ok c
    | .ok (c, false) => .ok (c.handleReverseTCPData cfg turn seg)

end Conn

end RootlessRelay
