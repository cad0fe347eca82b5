import RootlessRelay.RateLimiter
import RootlessRelay.Tcp.Pacer
import RootlessRelay.Tcp.SequenceItems
import RootlessRelay.Tcp.Utils

/-!
# Connection records

The connection object of `relay.js`, for connections the VM opened (`outbound`,
kept in `tcpConnections`) and for connections the relay opened towards the VM
(`reverse`, kept in `reverseTcpConnections`). Its fields are grouped by the
direction of the payload they serve. `registered` says that the map of the
session still holds this object under its key.

A connection is a value here, and a method returns a new one. Where the source
throws in the middle of a method, what it has done so far stands, so an
exception carries the connection it has left behind (`Thrown`).

Four fields are observations that no definition reads: `sent` (segments handed
to `sendIPToVM`), `enqueued` (chunks handed to `enqueueTCPData`), `acknowledged`
(items that left the retransmission queue) and `accepted` (payload over which
`vmSeq` was advanced).
-/

namespace RootlessRelay

/-- Which of the two maps a connection belongs to, and so which of the two sets
of handlers. -/
inductive Direction
  | outbound
  | reverse
  deriving DecidableEq, Repr

/-- The states of a connection, as the source names them. -/
inductive ConnState
  | synSent
  | established
  | finWait
  | closing
  | closed
  deriving DecidableEq, Repr

/-- `ESTABLISHED`, `FIN_WAIT` or `CLOSING`: the handshake is complete and the
connection not closed. -/
def ConnState.isOpen : ConnState → Bool
  | .established => true
  | .finWait => true
  | .closing => true
  | .synSent => false
  | .closed => false

/-- The writable side of the endpoint: the real socket of an outbound
connection, the `downstream` stream of a reverse one. -/
structure Sink where
  writable : Bool := true
  ended : Bool := false
  written : List Bytes := []
  deriving DecidableEq, Repr

/-- Payload from the VM to the endpoint, with what waits to be put in order. -/
structure ReceiveSide extends Reassembly where
  receiveBackpressured : Bool := false
  receiveAckPendingSegments : Nat := 0
  receiveAckTimer : Bool := false
  peerFin : Bool := false
  sink : Sink := {}
  accepted : Bytes := []

/-- Payload from the endpoint to the VM. `transportWaiting` is membership of
`tcpTransportWaiters`; `immediates` and `rateRetries` count resumes scheduled by
`setImmediate` and by the 20 ms rate-limit retry. `sourceEnded` and
`localClosed` record that the endpoint has emitted its `end` (or `close`) event. -/
structure SendSide where
  relayIsn : Seq
  relaySeq : Seq
  sendQueue : List Bytes := []
  sendQueueBytes : Nat := 0
  sendSourcePaused : Bool := false
  sending : Bool := false
  pendingFin : Bool := false
  finSent : Bool := false
  vmWindow : Nat
  windowUpdate : Option (Seq × Seq) := none
  dupAckCount : Nat := 0
  vmLastAck : Seq
  sendMss : Nat
  congestionWindow : Nat
  congestionThreshold : Nat
  congestionRecoveryUntil : Option Seq := none
  fastRetransmitAck : Option Seq := none
  pacer : Pacer
  retransmission : RetransmissionQueue
  transportWaiting : Bool := false
  immediates : Nat := 0
  rateRetries : Nat := 0
  sourceEnded : Bool := false
  localClosed : Bool := false
  enqueued : Bytes := []
  acknowledged : List Item := []

/-- A TCP segment on its way to the VM, before it becomes bytes. -/
structure WireSegment where
  flow : Tuple
  sequence : Seq
  acknowledgment : Seq
  flags : Flags
  window : Nat
  mss : Option Nat
  payload : Bytes
  deriving DecidableEq, Repr

/-- A connection, with the fields that its handlers and timers use. -/
structure Conn where
  direction : Direction
  tx : Tuple
  state : ConnState := .synSent
  registered : Bool := true
  recv : ReceiveSide := {}
  send : SendSide
  idleTimer : Bool := false
  removalTimer : Bool := false
  /-- The session's limiter, lent to the connection while it runs. -/
  rateLimiter : SlidingWindowRateLimiter
  sent : List WireSegment := []

/-- What the host answers during one callback: `ws.bufferedAmount` and the clock
as functions of the number of segments sent so far, the results of
`sink.write` as a function of the number of buffers written so far. -/
structure Turn where
  bufferedAmount : Nat → Nat := fun _ => 0
  now : Nat → Nat := fun _ => 0
  sinkAccepts : Nat → Bool := fun _ => true
  wsOpen : Bool := true

/-- A parsed TCP segment from the VM. `mss` is the MSS option of the segment, as
`parseTCPOptions` returns it. A payload fits into one IPv4 packet. -/
structure VMSegment where
  srcIP : IPv4 := 0
  srcPort : Port := 0
  dstIP : IPv4 := 0
  dstPort : Port := 0
  seqNum : Seq
  ackNum : Seq := 0
  syn : Bool := false
  ack : Bool := false
  fin : Bool := false
  rst : Bool := false
  window : BitVec 16 := 0
  mss : Option Nat := none
  payload : Bytes := []
  payload_fits : payload.length < 65536 := by decide

inductive Fault
  | queue (error : QueueError)
  | take (error : TakeError)
  | outOfFuel
  /-- The constructor of `TCPRetransmissionQueue` refuses its options. The
  connection that asked for a queue is left without one. -/
  | options (message : String)
  /-- `writeUInt16BE` refuses a value. -/
  | range (value : Int)
  deriving DecidableEq, Repr

/-- An exception, with the connection as the throwing code left it. -/
structure Thrown where
  fault : Fault
  conn : Conn

/-- What a method returns, or what it throws. -/
abbrev Outcome (α : Type) := Except Thrown α

namespace Conn

variable (cfg : Settings)

/-- `tcpMss`: the smaller of what the VM takes and what the relay sends, and
never zero. -/
def tcpMss (c : Conn) : Nat :=
  max 1 (min cfg.TCP_MSS (if c.send.sendMss = 0 then TCP_FALLBACK_MSS else c.send.sendMss))

/-- `tcpSendLimit`: what may be in flight, by the VM's window and the congestion
window. -/
def tcpSendLimit (c : Conn) : Nat :=
  min c.send.vmWindow
    (if c.send.congestionWindow = 0 then cfg.initialCwndBytes else c.send.congestionWindow)

/-- `tcpReceiveWindow`: the window that is announced, closed while the sink is
backpressured. -/
def tcpReceiveWindow (c : Conn) : Nat :=
  if c.recv.receiveBackpressured then 0
  else min 0xffff (cfg.tcpWindowSize - c.recv.vmOutOfOrderBytes)

theorem tcpMss_pos (c : Conn) : 0 < c.tcpMss cfg := by
  simp only [tcpMss]
  omega

theorem tcpMss_le (c : Conn) : c.tcpMss cfg ≤ cfg.TCP_MSS := by
  have := cfg.TCP_MSS_pos
  unfold tcpMss
  omega

/-- Every length the relay takes off a queue is one `takeQueuedBytes` accepts. -/
theorem tcpMss_safe (c : Conn) : c.tcpMss cfg ≤ maxSafeInteger := by
  have hmss := tcpMss_le cfg c
  have hmtu := cfg.mtu_range.2
  unfold Settings.TCP_MSS at hmss
  unfold maxSafeInteger
  omega

/-- `enqueueTCPData`: queue a chunk, and pause its source from the high-water
mark on. -/
def enqueueTCPData (c : Conn) (data : Bytes) : Conn :=
  let bytes := c.send.sendQueueBytes + data.length
  { c with send := { c.send with
      sendQueue := c.send.sendQueue ++ [data]
      sendQueueBytes := bytes
      sendSourcePaused := c.send.sendSourcePaused || decide (bytes ≥ cfg.sendQueueHighWaterBytes)
      enqueued := c.send.enqueued ++ data } }

/-- `consumeTCPQueuedData`: bytes have left the queue, and its source may be
resumed. -/
def consumeTCPQueuedData (c : Conn) (bytes : Nat) : Conn :=
  let left := c.send.sendQueueBytes - bytes
  { c with send := { c.send with
      sendQueueBytes := left
      sendSourcePaused := c.send.sendSourcePaused && !decide (left ≤ cfg.sendQueueLowWaterBytes) } }

/-- The test at the head of `updateTCPWindow`: an older segment than the last
one that set the window. -/
def isOldWindowUpdate (c : Conn) (sequence ack : Seq) : Bool :=
  match c.send.windowUpdate with
  | none => false
  | some (updateSeq, updateAck) =>
    seqLessThan sequence updateSeq || (sequence == updateSeq && seqLessThan ack updateAck)

/-- `updateTCPWindow`. The Boolean says whether the advertised window changed. -/
def updateTCPWindow (c : Conn) (sequence ack : Seq) (window : Nat) : Conn × Bool :=
  if c.isOldWindowUpdate sequence ack then (c, false)
  else
    ({ c with send := { c.send with vmWindow := window, windowUpdate := some (sequence, ack) } },
      c.send.vmWindow != window)

/-- One iteration of the segmentation loop of `sendTCP`: `chunk` is sent under
`flags`, from which the caller has removed what only the first or the last
segment carries. -/
def sendChunk (c : Conn) (sequence : Seq) (chunk : Bytes) (flags : Flags) (advance : Bool) :
    Conn × Option SentSegment :=
  let wire : WireSegment :=
    { flow := c.tx, sequence, acknowledgment := c.recv.vmSeq, flags,
      window := flags.windowSize.getD (c.tcpReceiveWindow cfg),
      mss := if flags.syn then some cfg.TCP_MSS else none, payload := chunk }
  let seqIncr := sequenceLength chunk flags
  let tracked := decide (seqIncr > 0) && !flags.rst
  let relaySeq :=
    if tracked && advance then sequence + BitVec.ofNat 32 seqIncr else c.send.relaySeq
  ({ c with sent := c.sent ++ [wire], send := { c.send with relaySeq } },
    if tracked then some { seq := sequence, payload := chunk, flags } else none)

/-- The loop of `sendTCP` over the payload, one segment of at most `mss` bytes
at a time. The fuel is enough for one byte a segment. -/
def sendTCPLoop (mss : Nat) (flags : Flags) (advance : Bool) :
    Nat → Conn → Seq → Bool → Bytes → List SentSegment → Conn × List SentSegment
  | 0, c, _, _, _, sentSegments => (c, sentSegments)
  | fuel + 1, c, sequence, isFirst, rest, sentSegments =>
    let chunk := rest.take mss
    let rest := rest.drop mss
    let isLastSegment := rest.isEmpty
    -- PSH and FIN belong to the last segment, SYN to the first.
    let segmentFlags := { flags with
      psh := flags.psh && isLastSegment
      fin := flags.fin && isLastSegment
      syn := flags.syn && isFirst }
    let (c, segment) := c.sendChunk cfg sequence chunk segmentFlags advance
    let sentSegments := sentSegments ++ segment.toList
    if isLastSegment then (c, sentSegments)
    else
      let sequence := match segment with
        | some _ => sequence + BitVec.ofNat 32 (sequenceLength chunk segmentFlags)
        | none => sequence
      sendTCPLoop mss flags advance fuel c sequence false rest sentSegments

/-- `sendTCP` with the addresses of `conn.tx`. `sequence` and `advance` are the
options of the source; `none` stands for `conn.relaySeq`. -/
def sendTCP (c : Conn) (payload : Bytes) (flags : Flags) (sequence : Option Seq)
    (advance : Bool) : Conn × List SentSegment :=
  sendTCPLoop cfg (c.tcpMss cfg) flags advance (payload.length + 1) c
    (sequence.getD c.send.relaySeq) true payload []

/-- The connection with another retransmission queue. Callbacks are handed the
queue separately. -/
def withQueue (c : Conn) (q : RetransmissionQueue) : Conn :=
  { c with send := { c.send with retransmission := q } }

/-- The loop of `sendTrackedTCP` over the segments `sendTCP` returned. They have
been sent by then. -/
def trackAll (c : Conn) : List SentSegment → Outcome Conn
  | [] => .ok c
  | segment :: rest =>
    match c.send.retransmission.track segment with
    | .error error => .error ⟨.queue error, c⟩
    | .ok (q, _) => trackAll (c.withQueue q) rest

/-- `sendTrackedTCP`: send, and then track what was sent. -/
def sendTrackedTCP (c : Conn) (payload : Bytes) (flags : Flags) (sequence : Option Seq)
    (advance : Bool) : Outcome Conn :=
  let (c, segments) := c.sendTCP cfg payload flags sequence advance
  c.trackAll segments

/-- `clearDelayedTCPAck`: no acknowledgement is due any more. -/
def clearDelayedTCPAck (c : Conn) : Conn :=
  { c with recv := { c.recv with receiveAckTimer := false, receiveAckPendingSegments := 0 } }

/-- `sendTCPAck`: a pure acknowledgement with the current window. -/
def sendTCPAck (c : Conn) : Conn :=
  let c := c.clearDelayedTCPAck
  (c.sendTCP cfg [] { ack := true, windowSize := some (c.tcpReceiveWindow cfg) } none true).1

/-- `scheduleTCPAck`: acknowledge now if it has to be, and else set the timer. -/
def scheduleTCPAck (c : Conn) (segments : Nat) (immediate : Bool) : Conn :=
  let pending := c.recv.receiveAckPendingSegments + segments
  let c := { c with recv := { c.recv with receiveAckPendingSegments := pending } }
  if immediate || cfg.ackDelayMs = 0 || decide (pending ≥ cfg.ackEverySegments) ||
      c.tcpReceiveWindow cfg = 0 then c.sendTCPAck cfg
  else { c with recv := { c.recv with receiveAckTimer := true } }

/-- The delayed-ACK timer callback; a connection that has been closed does not
answer. -/
def fireAckTimer (c : Conn) : Conn :=
  let c := { c with recv := { c.recv with receiveAckTimer := false } }
  if c.state ≠ .closed ∧ c.recv.receiveAckPendingSegments > 0 then c.sendTCPAck cfg else c

/-- The sink takes payload again: the window is opened, and the VM is told. -/
def onTCPReceiveDrain (c : Conn) : Conn :=
  if !c.registered || !c.recv.receiveBackpressured then c
  else
    ({ c with recv := { c.recv with receiveBackpressured := false } }).scheduleTCPAck cfg 0 true

/-- `abortTCPConnection`: the map entry goes first, and the reset is sent last. -/
def abortTCPConnection (turn : Turn) (c : Conn) (sendReset : Bool) : Conn :=
  if !c.registered then c
  else
    let c := ({ c with
      state := .closed
      registered := false
      send := { c.send with
        transportWaiting := false
        pacer := c.send.pacer.close
        retransmission := c.send.retransmission.close } }).clearDelayedTCPAck
    let c := if sendReset && turn.wsOpen then
        (c.sendTCP cfg [] { rst := true, ack := true } none true).1 else c
    { c with recv := { c.recv with sink := { c.recv.sink with writable := false } } }

/-- `abortReverseConnection`: here the reset goes out first. -/
def abortReverseConnection (turn : Turn) (c : Conn) (sendReset : Bool) : Conn :=
  if !c.registered then c
  else
    let c := if sendReset && turn.wsOpen then
        (c.sendTCP cfg [] { rst := true, ack := true } none true).1 else c
    let c := ({ c with
      state := .closed
      registered := false
      idleTimer := false
      send := { c.send with
        transportWaiting := false
        pacer := c.send.pacer.close
        retransmission := c.send.retransmission.close } }).clearDelayedTCPAck
    { c with recv := { c.recv with sink := { c.recv.sink with writable := false } } }

/-- The one of the two that the connection's closures call. -/
def abort (turn : Turn) (c : Conn) (sendReset : Bool) : Conn :=
  match c.direction with
  | .outbound => c.abortTCPConnection cfg turn sendReset
  | .reverse => c.abortReverseConnection cfg turn sendReset

/-- What both ways of finishing do to the connection and its sink. Pending
timers of the sending side are cancelled. -/
def shutDown (c : Conn) : Conn :=
  ({ c with
    state := .closed
    recv := { c.recv with sink := { c.recv.sink with writable := false, ended := true } }
    send := { c.send with
      transportWaiting := false
      pacer := c.send.pacer.close
      retransmission := c.send.retransmission.close } }).clearDelayedTCPAck

/-- `finishTCPConnection`: the map entry stays until the two-second timer fires. -/
def finishTCPConnection (c : Conn) : Conn :=
  if !c.registered then c else { c.shutDown with removalTimer := true }

/-- `finishReverseConnection`: the map entry goes at once. -/
def finishReverseConnection (c : Conn) : Conn :=
  if !c.registered then c else { c.shutDown with registered := false, idleTimer := false }

end Conn

end RootlessRelay
