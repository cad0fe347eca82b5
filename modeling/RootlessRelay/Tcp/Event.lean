import RootlessRelay.Library.Transition
import RootlessRelay.Tcp.Handle

/-!
# Runs of a connection

A connection is opened by a SYN of the VM (`openOutbound`) or by the relay
(`openReverse`). Both register the connection first, and both can throw afterwards: the
retransmission queue refuses its settings, or the first segment does not fit its header.

Afterwards the event loop runs one callback after another. An `Event` is one such
callback. `Enabled` says when the host can run it: timers that are pending, an endpoint
that has not ended, a connection the session still holds. `Reachable` connections are those
of which the opening has returned.
-/

namespace RootlessRelay

/-- One callback of the event loop. -/
inductive Event
  /-- A segment from the VM that belongs to the connection. -/
  | segment (seg : VMSegment)
  /-- `data` of the real socket, or of `upstream`. -/
  | sourceData (data : Bytes)
  /-- `end` of the real socket, or `close` of `upstream`. -/
  | sourceEnd
  /-- `close` of the local client socket of a reverse connection. -/
  | localClose
  /-- An error of the endpoint, or the cleanup of an HTTP request. -/
  | endpointError
  | sinkDrain
  /-- The endpoint stops accepting data, without an error. -/
  | sinkEnd
  | retransmissionTimer (generation : Nat)
  | pacerTimer
  | ackTimer
  | idleTimer
  | removalTimer
  | rateRetry
  | immediate
  /-- A resume that an earlier connection left behind under the same key. -/
  | staleResume
  /-- `resumeTCPTransportWaiters` with the WebSocket drained. -/
  | transportFlush
  /-- The rate limiter is shared by the connections of a session. -/
  | otherTraffic (rateLimiter : SlidingWindowRateLimiter)

namespace Conn

variable (cfg : Settings)

/-- What `initializeRetransmission` sets up on the sending side, once the queue
has accepted its settings. -/
def initializeRetransmission (relayIsn relaySeq : Seq) (vmWindow sendMss : Nat) : SendSide where
  relayIsn
  relaySeq
  vmWindow
  vmLastAck := relayIsn
  sendMss
  congestionWindow := min cfg.initialCwndBytes cfg.tcpWindowSize
  congestionThreshold := cfg.tcpWindowSize
  pacer := Pacer.new cfg
  retransmission :=
    RetransmissionQueue.new relayIsn cfg.rtoInitialMs cfg.rtoMaxMs cfg.rtoMaxRetransmissions

/-- What the constructor of the retransmission queue throws under the settings,
if it does. -/
def rtoRefusal : Option String :=
  RetransmissionQueue.refusal cfg.rtoInitialMs cfg.rtoMaxMs cfg.rtoMaxRetransmissions

/-- The connection a SYN of the VM creates, before the SYN-ACK goes out. It is
registered already. -/
def outboundConn (rateLimiter : SlidingWindowRateLimiter) (seg : VMSegment) (isn : Seq) : Conn where
  direction := .outbound
  tx := { srcPort := seg.dstPort, dstPort := seg.srcPort, srcIP := seg.dstIP, dstIP := seg.srcIP }
  recv := { vmSeq := seg.seqNum + 1 }
  send := initializeRetransmission cfg isn (isn + 1) (min seg.window.toNat cfg.tcpWindowSize)
    (min cfg.TCP_MSS (match seg.mss with
      | some mss => if mss = 0 then TCP_FALLBACK_MSS else mss
      | none => TCP_FALLBACK_MSS))
  rateLimiter

/-- `handleTCP` for a SYN under a key that is free. The connection is in its map
by now, and stays there when the queue refuses its options or the SYN-ACK cannot
be written. -/
def openOutbound (rateLimiter : SlidingWindowRateLimiter) (seg : VMSegment) (isn : Seq) :
    Outcome Conn :=
  let c := outboundConn cfg rateLimiter seg isn
  match rtoRefusal cfg with
  | some message => .error ⟨.options message, c⟩
  | none =>
    -- the SYN-ACK announces `TCP_WINDOW_SIZE` as it is
    if cfg.tcpWindowSize > 0xffff then .error ⟨.range cfg.tcpWindowSize, c⟩
    else
      c.sendTrackedTCP cfg [] { syn := true, ack := true, windowSize := some cfg.tcpWindowSize }
        (some isn) false

/-- The connection `createTCPConnection` registers, before the SYN goes out. The
port is the one of a rule. -/
def reverseConn (rateLimiter : SlidingWindowRateLimiter) (vmIP : IPv4) (srcPort : Port)
    (port : Int) (isn : Seq) : Conn where
  direction := .reverse
  tx := { srcPort, dstPort := port, srcIP := cfg.gatewayIP, dstIP := vmIP }
  send := initializeRetransmission cfg isn isn cfg.tcpWindowSize cfg.TCP_MSS
  idleTimer := true
  rateLimiter

/-- `createTCPConnection` once a source port is chosen. The idle timer is
started behind the constructor of the queue. What throws rejects the promise,
with the connection in its map. -/
def openReverse (rateLimiter : SlidingWindowRateLimiter) (vmIP : IPv4) (srcPort : Port)
    (port : Int) (isn : Seq) : Outcome Conn :=
  let c := reverseConn cfg rateLimiter vmIP srcPort port isn
  match rtoRefusal cfg with
  | some message => .error ⟨.options message, { c with idleTimer := false }⟩
  | none =>
    if port < 0 ∨ port > 0xffff then .error ⟨.range port, c⟩
    else c.sendTrackedTCP cfg [] { syn := true } none true

/-- `c` has just been opened, and nothing has been thrown. -/
inductive Opened : Conn → Prop
  | outbound {rateLimiter : SlidingWindowRateLimiter} {seg : VMSegment} {isn : Seq} {c : Conn} :
      openOutbound cfg rateLimiter seg isn = .ok c → Opened c
  | reverse {rateLimiter : SlidingWindowRateLimiter} {vmIP : IPv4} {srcPort : Port} {port : Int}
      {isn : Seq} {c : Conn} :
      openReverse cfg rateLimiter vmIP srcPort port isn = .ok c → Opened c

variable (turn : Turn)

/-- `handleTCP` or `handleReverseTCP`, by the direction of the connection. -/
def onSegment (c : Conn) (seg : VMSegment) : Outcome Conn :=
  match c.direction with
  | .outbound => c.handleTCP cfg turn seg
  | .reverse => c.handleReverseTCP cfg turn seg

/-- `bumpReverseConnActivity`; outbound connections have no idle timer. -/
def bumpActivity (c : Conn) : Conn :=
  match c.direction with
  | .outbound => c
  | .reverse => { c with idleTimer := true }

/-- Payload from the endpoint: queue it, and send what may be sent. -/
def onSourceData (c : Conn) (data : Bytes) : Outcome Conn :=
  (c.bumpActivity.enqueueTCPData cfg data).trySend cfg turn

/-- The `end` handler of the real socket and the `close` handler of `upstream`:
a FIN is due. -/
def onSourceEnd (c : Conn) : Outcome Conn :=
  let c := { c with send := { c.send with sourceEnded := true } }
  if c.state = .closed then .ok c
  else
    let c := c.bumpActivity
    ({ c with send := { c.send with pendingFin := true } }).trySend cfg turn

/-- The `close` handler of the local client socket, behind which a FIN is due as
well. -/
def onLocalClose (c : Conn) : Outcome Conn :=
  ({ c with send := { c.send with localClosed := true, pendingFin := true } }).trySend cfg turn

/-- The timer of the pacer: the loop goes on. -/
def onPacerTimer (c : Conn) : Outcome Conn :=
  ({ c with send := { c.send with pacer := c.send.pacer.fireTimer } }).trySend cfg turn

/-- A timer that was set when the rate limiter refused. -/
def onRateRetry (c : Conn) : Outcome Conn :=
  ({ c with send := { c.send with rateRetries := c.send.rateRetries - 1 } }).trySend cfg turn

/-- An immediate that was set for cooperation or for a flush. -/
def onImmediate (c : Conn) : Outcome Conn :=
  ({ c with send := { c.send with immediates := c.send.immediates - 1 } }).trySend cfg turn

/-- The transport has taken what was buffered; the loop goes on with the next
turn. -/
def onTransportFlush (c : Conn) : Conn :=
  { c with send := { c.send with transportWaiting := false, immediates := c.send.immediates + 1 } }

/-- The callback of an event, on the connection it belongs to. -/
def handle (c : Conn) : Event → Outcome Conn
  | .segment seg => c.onSegment cfg turn seg
  | .sourceData data => c.onSourceData cfg turn data
  | .sourceEnd => c.onSourceEnd cfg turn
  | .localClose => c.onLocalClose cfg turn
  | .endpointError => .ok (c.abort cfg turn true)
  | .sinkDrain => .ok (c.onTCPReceiveDrain cfg)
  | .sinkEnd => .ok { c with recv := { c.recv with sink := { c.recv.sink with writable := false } } }
  | .retransmissionTimer generation => .ok (c.fireRetransmissionTimer cfg turn generation)
  | .pacerTimer => c.onPacerTimer cfg turn
  | .ackTimer => .ok (c.fireAckTimer cfg)
  | .idleTimer => .ok (({ c with idleTimer := false }).abort cfg turn true)
  | .removalTimer => .ok { c with removalTimer := false, registered := false }
  | .rateRetry => c.onRateRetry cfg turn
  | .immediate => c.onImmediate cfg turn
  | .staleResume => c.trySend cfg turn
  | .transportFlush => .ok c.onTransportFlush
  | .otherTraffic rateLimiter => .ok { c with rateLimiter }

/-- When the host can run the callback of an event. Buffers are never empty, an
endpoint ends once, and it sends no data afterwards. -/
def CanOccur (c : Conn) : Event → Prop
  | .sourceData data => data ≠ [] ∧ c.send.sourceEnded = false
  | .sourceEnd => c.send.sourceEnded = false
  | .localClose => c.direction = .reverse ∧ c.send.localClosed = false
  | .retransmissionTimer generation => generation ∈ c.send.retransmission.scheduled
  | .pacerTimer => c.send.pacer.timer = true
  | .ackTimer => c.recv.receiveAckTimer = true
  | .idleTimer => c.idleTimer = true
  | .removalTimer => c.removalTimer = true
  | .rateRetry => 0 < c.send.rateRetries
  | .immediate => 0 < c.send.immediates
  | .transportFlush => c.send.transportWaiting = true
  | _ => True

/-- An event acts on the connection while the session holds it, and while the
host can run it. -/
def Enabled (c : Conn) (event : Event) : Prop := c.registered = true ∧ c.CanOccur event

/-- One callback, with the answers the host gives during it, that throws
nothing. -/
def Step (c : Conn) (label : Turn × Event) (c' : Conn) : Prop :=
  c.Enabled label.2 ∧ c.handle cfg label.1 label.2 = .ok c'

/-- `c` occurs in some run of a connection, from its opening on. -/
def Reachable (c : Conn) : Prop :=
  ∃ c₀, Opened cfg c₀ ∧ Transition.Reaches (Step cfg) c₀ c

/-- The event is the arrival of a segment with the property `p`. -/
def Brings (p : VMSegment → Prop) : Event → Prop
  | .segment seg => p seg
  | _ => False

instance (c : Conn) : (event : Event) → Decidable (c.CanOccur event)
  | .sourceData data => inferInstanceAs (Decidable (data ≠ [] ∧ c.send.sourceEnded = false))
  | .sourceEnd => inferInstanceAs (Decidable (c.send.sourceEnded = false))
  | .localClose =>
    inferInstanceAs (Decidable (c.direction = .reverse ∧ c.send.localClosed = false))
  | .retransmissionTimer generation =>
    inferInstanceAs (Decidable (generation ∈ c.send.retransmission.scheduled))
  | .pacerTimer => inferInstanceAs (Decidable (c.send.pacer.timer = true))
  | .ackTimer => inferInstanceAs (Decidable (c.recv.receiveAckTimer = true))
  | .idleTimer => inferInstanceAs (Decidable (c.idleTimer = true))
  | .removalTimer => inferInstanceAs (Decidable (c.removalTimer = true))
  | .rateRetry => inferInstanceAs (Decidable (0 < c.send.rateRetries))
  | .immediate => inferInstanceAs (Decidable (0 < c.send.immediates))
  | .transportFlush => inferInstanceAs (Decidable (c.send.transportWaiting = true))
  | .segment _ | .endpointError | .sinkDrain | .sinkEnd | .staleResume | .otherTraffic _ =>
    inferInstanceAs (Decidable True)

instance (p : VMSegment → Prop) [DecidablePred p] : (event : Event) → Decidable (Brings p event)
  | .segment seg => inferInstanceAs (Decidable (p seg))
  | .sourceData _ | .sourceEnd | .localClose | .endpointError | .sinkDrain | .sinkEnd |
    .retransmissionTimer _ | .pacerTimer | .ackTimer | .idleTimer | .removalTimer | .rateRetry |
    .immediate | .staleResume | .transportFlush | .otherTraffic _ =>
    inferInstanceAs (Decidable False)

instance (c : Conn) (event : Event) : Decidable (c.Enabled event) :=
  inferInstanceAs (Decidable (_ ∧ _))

/-- Run callbacks in order, as long as each of them is enabled, `allowed`, and
returns. It decides runs on fixed inputs. -/
def execute (allowed : Conn → Turn × Event → Prop) [∀ c label, Decidable (allowed c label)]
    (c : Conn) : List (Turn × Event) → Option Conn
  | [] => some c
  | label :: rest =>
    if allowed c label ∧ c.Enabled label.2 then
      match c.handle cfg label.1 label.2 with
      | .ok c => c.execute allowed rest
      | .error _ => none
    else none

/-- What has been computed is a run, so that examples can be evaluated. -/
theorem run_of_execute {allowed : Conn → Turn × Event → Prop}
    [∀ c label, Decidable (allowed c label)] {c c' : Conn} {labels : List (Turn × Event)}
    (h : c.execute cfg allowed labels = some c') :
    Transition.Run (Transition.Restrict (Step cfg) allowed) c labels c' := by
  induction labels generalizing c with
  | nil =>
      obtain rfl := Option.some.inj h
      exact .nil _
  | cons label rest ih =>
      simp only [execute] at h
      split at h
      · rename_i hlabel
        cases hok : c.handle cfg label.1 label.2 with
        | error thrown =>
            rw [hok] at h
            cases h
        | ok c₁ =>
            rw [hok] at h
            exact .cons ⟨hlabel.1, hlabel.2, hok⟩ (ih h)
      · cases h

end Conn

end RootlessRelay
