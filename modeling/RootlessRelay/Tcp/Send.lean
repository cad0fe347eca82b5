import RootlessRelay.Tcp.Conn
import RootlessRelay.Tcp.RetransmissionRuns

/-!
# Sending to the VM

Congestion control, the retransmission callbacks, the FIN and the send loop
`drainTCPToVM`, with every one of its exits. The callbacks run while the queue
is inside one of its methods; they see the queue as it is at that point.

The loop is cut into one iteration and its repetition. It has many ways out, and
the state that each of them leaves is part of the model: a timer of the pacer or
of the rate limiter, a flush of the transport, an immediate for cooperation, or
nothing at all. The answers of the host during one callback, the clock and
whether the transport is backed up, come from a `Turn`. The fuel of the loop is
enough for the queue it starts with, which is proved where it matters.
-/

namespace RootlessRelay

namespace Conn

variable (cfg : Settings) (turn : Turn)

/-- `onTCPCongestionLoss`; `reason` is `timeout` or `fast`. Without bytes in
flight nothing is lost. -/
def onTCPCongestionLoss (c : Conn) (reason : Reason) : Conn :=
  let q := c.send.retransmission
  if q.payloadBytesInFlight = 0 then c
  else
    let mss := c.tcpMss cfg
    let threshold := max (2 * mss) (q.payloadBytesInFlight / 2)
    { c with send := { c.send with
        congestionThreshold := threshold
        congestionWindow := if reason = .timeout then mss else threshold
        congestionRecoveryUntil := some q.sndNxt
        fastRetransmitAck := some q.sndUna
        pacer := c.send.pacer.noteLoss } }

/-- Send again what a tracked segment still holds, under its own number. -/
def resend (c : Conn) (segment : Segment) : Conn :=
  (c.sendTCP cfg segment.payload segment.flags (some segment.seq) false).1

/-- `retransmitTCPRecoveryHead`: the oldest segment once more, for a partial
acknowledgement during recovery. -/
def retransmitTCPRecoveryHead (c : Conn) : Conn :=
  match c.send.retransmission.oldest with
  | none => c
  | some segment =>
    ({ c with send := { c.send with
        fastRetransmitAck := some c.send.retransmission.sndUna } }).resend cfg segment

/-- `onTCPCongestionAck`: recovery ends or goes on, or the window grows. -/
def onTCPCongestionAck (c : Conn) (ackedDataBytes : Nat) (ackNumber : Seq) : Conn :=
  if ackedDataBytes = 0 then c
  else
    match c.send.congestionRecoveryUntil with
    | some recoveryUntil =>
      if ackNumber = recoveryUntil ∨ seqLessThan recoveryUntil ackNumber then
        { c with send := { c.send with congestionRecoveryUntil := none } }
      else c.retransmitTCPRecoveryHead cfg
    | none =>
      let mss := c.tcpMss cfg
      let current := max mss
        (if c.send.congestionWindow = 0 then mss else c.send.congestionWindow)
      let increment := max 1 (mss * ackedDataBytes / current)
      let window := min cfg.tcpWindowSize (current + increment)
      { c with send := { c.send with
          congestionWindow := window
          pacer := c.send.pacer.noteAck ackedDataBytes window } }

/-- The test of `isTCPCongestionRecoveryActive`: the recovery point is still
ahead. -/
def recoveryActive (c : Conn) : Bool :=
  match c.send.congestionRecoveryUntil with
  | none => false
  | some recoveryUntil =>
    !(c.send.retransmission.sndUna == recoveryUntil ||
      seqLessThan recoveryUntil c.send.retransmission.sndUna)

/-- `isTCPCongestionRecoveryActive` forgets a recovery point that is reached. -/
def isTCPCongestionRecoveryActive (c : Conn) : Conn × Bool :=
  if c.recoveryActive then (c, true)
  else ({ c with send := { c.send with congestionRecoveryUntil := none } }, false)

/-- The `onRetransmit` closure: note the loss, and send the segment again. A
connection that is no longer registered closes its queue. -/
def onRetransmit (c : Conn) (segment : Segment) (reason : Reason) : Conn :=
  if !c.registered then
    { c with send := { c.send with retransmission := c.send.retransmission.close } }
  else
    let c := if reason ≠ .windowOpen then c.onTCPCongestionLoss cfg reason else c
    c.resend cfg segment

/-- The connection with other bytes waiting. -/
def withSendQueue (c : Conn) (queue : List Bytes) : Conn :=
  { c with send := { c.send with sendQueue := queue } }

/-- The FIN leaves: `pendingFin`, `finSent` and the state change first. -/
def markFin (c : Conn) : Conn :=
  { c with state := .finWait, send := { c.send with pendingFin := false, finSent := true } }

/-- `sendFin`: the FIN is tracked as a segment without payload. -/
def sendFin (c : Conn) : Outcome Conn :=
  c.markFin.sendTrackedTCP cfg [] { fin := true, ack := true } none true

/-- `onPersistProbe`: repeat one byte (or the FIN) of the oldest segment, else
take one new byte from the queue, else send a FIN that is waiting. -/
def onPersistProbe (c : Conn) (segment : Option Segment) : Conn × ProbeResult :=
  if !c.registered || c.state = .closed then
    ({ c with send := { c.send with retransmission := c.send.retransmission.close } }, .returned)
  else if turn.bufferedAmount c.sent.length > 32768 then (c, .refused)
  else
    match segment with
    | some segment =>
      ((c.sendTCP cfg (segment.payload.take 1)
        { ack := true, fin := decide (segment.payload.length = 0) && segment.flags.fin }
        (some segment.seq) false).1, .returned)
    | none =>
      if c.send.sendQueueBytes > 0 then
        match takeQueuedBytes maxSafeInteger c.send.sendQueue 1 with
        | .error (_, queue) => (c.withSendQueue queue, .threw)
        | .ok (byte, queue) =>
          match (c.withSendQueue queue).sendTrackedTCP cfg byte { ack := true } none true with
          | .error thrown => (thrown.conn, .threw)
          | .ok c => (c.consumeTCPQueuedData cfg 1, .returned)
      else if c.send.pendingFin then
        match c.sendFin cfg with
        | .error thrown => (thrown.conn, .threw)
        | .ok c => (c, .returned)
      else (c, .returned)

/-- The closures `initializeRetransmission` passes to the queue. -/
def callbacks : Callbacks Conn where
  onRetransmit q c segment reason :=
    match segment with
    | none => (q, c, true)
    | some segment =>
      let c := (c.withQueue q).onRetransmit cfg segment reason
      (c.send.retransmission, c, false)
  onPersistProbe q c segment :=
    let (c, result) := (c.withQueue q).onPersistProbe cfg turn segment
    (c.send.retransmission, c, result)
  onExhausted q c _ _ :=
    let c := (c.withQueue q).abort cfg turn true
    (c.send.retransmission, c)

/-- The queue's method, on the connection that owns it. -/
def fastRetransmit (c : Conn) : Conn :=
  let (q, c, _) := c.send.retransmission.fastRetransmit (callbacks cfg turn) c
  c.withQueue q

/-- The queue's method, on the connection that owns it. -/
def setPersist (c : Conn) (enabled : Bool) : Conn :=
  let (q, c) := c.send.retransmission.setPersist (callbacks cfg turn) c enabled
  c.withQueue q

/-- The retransmission timer callback with the given generation. -/
def fireRetransmissionTimer (c : Conn) (generation : Nat) : Conn :=
  let (q, c) := c.send.retransmission.fireTimer (callbacks cfg turn) c generation
  c.withQueue q

/-- The common body of `maybeSendTCPFin` and `maybeSendReverseFin`: a FIN waits
until the queue is empty, the window has room and recovery is over. -/
def maybeSendFin (c : Conn) : Outcome Conn :=
  if !c.send.pendingFin || c.send.finSent || decide (c.send.sendQueue.length > 0) ||
      decide (c.send.retransmission.payloadBytesInFlight ≥ c.send.vmWindow) then .ok c
  else
    let (c, active) := c.isTCPCongestionRecoveryActive
    if active || !c.registered then .ok c
    else c.sendFin cfg

/-- `maybeSendTCPFin`. -/
def maybeSendTCPFin (c : Conn) : Outcome Conn := c.maybeSendFin cfg

/-- `maybeSendReverseFin`. -/
def maybeSendReverseFin (c : Conn) : Outcome Conn := c.maybeSendFin cfg

/-- The one of the two for the connection's direction. -/
def maybeFin (c : Conn) : Outcome Conn :=
  match c.direction with
  | .outbound => c.maybeSendTCPFin cfg
  | .reverse => c.maybeSendReverseFin cfg

/-- `notePacedTCPSegment`: tell the pacer, and stop when it says so. -/
def notePacedTCPSegment (c : Conn) : Conn × Bool :=
  let (pacer, blocked) := c.send.pacer.noteSegment (turn.now c.sent.length)
  ({ c with send := { c.send with pacer, sending := c.send.sending && !blocked } }, blocked)

/-- `this.rateLimiter.tryConsume`, skipped for reverse connections. -/
def tryConsume (c : Conn) (rateLimited : Bool) (bytes : Nat) : Conn × Bool :=
  if rateLimited then
    let (rateLimiter, admitted) := c.rateLimiter.tryConsume (turn.now c.sent.length) bytes
    ({ c with rateLimiter }, admitted)
  else (c, true)

/-- Send the next `toSend` bytes of the queue in one segment. They are at most
one MSS, and the host is never out of memory for those. -/
def sendQueued (c : Conn) (toSend : Nat) : Outcome Conn :=
  match takeQueuedBytes maxSafeInteger c.send.sendQueue toSend with
  | .error (error, queue) => .error ⟨.take error, c.withSendQueue queue⟩
  | .ok (chunk, queue) =>
    match (c.withSendQueue queue).sendTrackedTCP cfg chunk { ack := true, psh := true } none
        true with
    | .error thrown => .error thrown
    | .ok c => .ok (c.consumeTCPQueuedData cfg toSend)

/-- The loop returns: another call may start it again. -/
def stopSending (c : Conn) : Conn := { c with send := { c.send with sending := false } }

/-- An iteration of the loop from the rate limiter on, with `toSend` bytes to
send. The returned Boolean says that the loop goes on. -/
def sendStep (c : Conn) (rateLimited : Bool) (cooperativeSegments available toSend : Nat) :
    Outcome (Conn × Bool) :=
  let (c, admitted) := c.tryConsume turn rateLimited toSend
  if !admitted then
    .ok ({ c with send := { c.send with
      sending := false, rateRetries := c.send.rateRetries + 1 } }, false)
  else
    match c.sendQueued cfg toSend with
    | .error thrown => .error thrown
    | .ok c =>
      let (c, blocked) := c.notePacedTCPSegment turn
      if blocked then .ok (c, false)
      else if c.send.sendQueue = [] ∨ available ≤ toSend then
        (c.stopSending.maybeFin cfg).map fun c => (c, false)
      else if c.send.pacer.isOff && decide (cooperativeSegments + 1 ≥ 64) then
        .ok ({ c with send := { c.send with
          sending := false, immediates := c.send.immediates + 1 } }, false)
      else .ok (c, true)

/-- One iteration of the `while (true)` loop of `drainTCPToVM`. The Boolean says
that the loop goes on. -/
def drainStep (c : Conn) (rateLimited : Bool) (cooperativeSegments : Nat) :
    Outcome (Conn × Bool) :=
  if !c.registered then .ok (c.stopSending, false)
  else if c.send.sendQueue = [] then (c.stopSending.maybeFin cfg).map fun c => (c, false)
  else if turn.bufferedAmount c.sent.length > 32768 then
    .ok ({ c with send := { c.send with sending := false, transportWaiting := true } }, false)
  else
    let sendLimit := c.tcpSendLimit cfg
    let inFlightBytes := c.send.retransmission.payloadBytesInFlight
    let (c, recovering) := c.isTCPCongestionRecoveryActive
    let available := if recovering then 0 else sendLimit - inFlightBytes
    let toSend := min (c.tcpMss cfg) (min c.send.sendQueueBytes available)
    if toSend = 0 then .ok (c.stopSending, false)
    else c.sendStep cfg turn rateLimited cooperativeSegments available toSend

/-- The loop of `drainTCPToVM`. Every iteration that goes on takes bytes off the
queue, so the queued bytes bound the iterations. -/
def drainLoop (rateLimited : Bool) : Nat → Nat → Conn → Outcome Conn
  | 0, _, c => .error ⟨.outOfFuel, c⟩
  | fuel + 1, cooperativeSegments, c =>
    match c.drainStep cfg turn rateLimited cooperativeSegments with
    | .error thrown => .error thrown
    | .ok (c, false) => .ok c
    | .ok (c, true) => drainLoop rateLimited fuel (cooperativeSegments + 1) c

/-- What `drainTCPToVM` passes to `setPersist`: the window is closed and
something waits. -/
def wantsPersist (c : Conn) : Bool :=
  decide (c.send.vmWindow = 0) &&
    (c.send.retransmission.hasOutstanding || decide (c.send.sendQueueBytes > 0) ||
      c.send.pendingFin)

/-- `drainTCPToVM`: set `sending`, settle the persist mode, and send until
something stops it. -/
def drainTCPToVM (c : Conn) (rateLimited : Bool) : Outcome Conn :=
  let c := { c with send := { c.send with sending := true } }
  let c := c.setPersist cfg turn c.wantsPersist
  drainLoop cfg turn rateLimited (c.send.sendQueueBytes + 1) 0 c

/-- `trySendReverseToVM`, for a connection whose handshake is complete and that
is not closed. -/
def trySendReverseToVM (c : Conn) : Outcome Conn :=
  if !c.registered || c.send.sending || c.send.pacer.blocked || !c.state.isOpen then .ok c
  else c.drainTCPToVM cfg turn false

/-- `trySendToVM`, for a connection whose handshake is complete. What it sends
counts against the rate limit. -/
def trySendToVM (c : Conn) : Outcome Conn :=
  if !c.registered || c.send.sending || c.send.pacer.blocked || c.state = .synSent then .ok c
  else c.drainTCPToVM cfg turn true

/-- `trySendToVM` or `trySendReverseToVM`, as the closures of the connection
have it. -/
def trySend (c : Conn) : Outcome Conn :=
  match c.direction with
  | .outbound => c.trySendToVM cfg turn
  | .reverse => c.trySendReverseToVM cfg turn

end Conn

end RootlessRelay
