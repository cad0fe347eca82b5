import RootlessRelay.Basic

/-!
# The retransmission queue

`TCPRetransmissionQueue` of `tcp_retransmission.js`, one definition for each
method. A method that calls back into its owner takes the owner's state `σ` and
a record of callbacks, and threads both: the queue a callback returns is the
queue it left behind, whatever methods it called in between.

Timers are modelled by the generation number captured in the scheduled closure.
`scheduled` collects the closures handed to `setTimeoutFn` that have not run;
`clearTimer` does not remove them, so the model also covers a host whose
`clearTimeoutFn` does nothing.
-/

namespace RootlessRelay

/-- `HALF_SEQUENCE_SPACE`: from here on a distance is taken for one backwards. -/
def HALF_SEQUENCE_SPACE : Nat := 0x80000000

/-- `(later - earlier) >>> 0`, the forward distance of the library. -/
abbrev sequenceDistance (later earlier : Seq) : Nat := SequenceSpace.distance later earlier

/-- `sequenceLength`: the payload, and one each for SYN and FIN. -/
def sequenceLength (payload : Bytes) (flags : Flags) : Nat :=
  payload.length + flags.syn.toNat + flags.fin.toNat

/-- A tracked segment that the VM has not acknowledged completely. Acknowledged
bytes are cut off its front. -/
structure Segment where
  seq : Seq
  payload : Bytes
  flags : Flags
  sequenceLength : Nat
  retransmissions : Nat := 0
  deriving DecidableEq, Repr

/-- The argument of `track`, and the elements of the list `sendTCP` returns. -/
structure SentSegment where
  seq : Seq
  payload : Bytes
  flags : Flags := {}
  deriving DecidableEq, Repr

/-- What the methods throw, with the numbers that stand in the message. -/
inductive QueueError
  | closedQueue
  | nonContiguous (expected got : Seq)
  | ackBeyondTracked
  | invalidPartialAck
  deriving DecidableEq, Repr

/-- How an acknowledgement number lies to what is outstanding. -/
inductive AckStatus
  | duplicate
  | stale
  | future
  | advanced
  deriving DecidableEq, Repr

/-- What `acknowledge` returns. -/
structure AckResult where
  status : AckStatus
  ackedDataBytes : Nat
  deriving DecidableEq, Repr

/-- Why `onRetransmit` is called: the sender treats a loss by it. -/
inductive Reason
  | fast
  | timeout
  | windowOpen
  deriving DecidableEq, Repr

/-- The error passed to `onExhausted`. Behind it the queue does nothing any
more. -/
inductive Exhaustion
  | probeLimit
  | retransmissionLimit
  | callbackThrew
  deriving DecidableEq, Repr

/-- How a call of `onPersistProbe` ends; `refused` is the return value `false`. -/
inductive ProbeResult
  | returned
  | refused
  | threw
  deriving DecidableEq, Repr

/-- The handle of the pending timeout: which closure, and its delay. A closure
is known by the generation it was made in. -/
structure Timer where
  generation : Nat
  delayMs : Nat
  deriving DecidableEq, Repr

/-- The fields of a queue, and `scheduled`, the closures the host still holds. -/
structure RetransmissionQueue where
  sndUna : Seq
  sndNxt : Seq
  persist : Bool := false
  initialRtoMs : Nat
  maxRtoMs : Nat
  maxRetransmissions : Nat
  currentRtoMs : Nat
  timeoutRetransmissions : Nat := 0
  segments : List Segment := []
  payloadBytesInFlight : Nat := 0
  timer : Option Timer := none
  timerGeneration : Nat := 0
  scheduled : List Nat := []
  closed : Bool := false
  exhausted : Bool := false
  deriving DecidableEq, Repr

/-- The owner's callbacks. The second component of `onRetransmit`'s result says
whether the call threw. -/
structure Callbacks (σ : Type) where
  onRetransmit : RetransmissionQueue → σ → Option Segment → Reason →
    RetransmissionQueue × σ × Bool
  onPersistProbe : RetransmissionQueue → σ → Option Segment →
    RetransmissionQueue × σ × ProbeResult
  onExhausted : RetransmissionQueue → σ → Exhaustion → Option Segment →
    RetransmissionQueue × σ

namespace RetransmissionQueue

/-- What the constructor throws for its options, if it does. There is no other
check of the settings. -/
def refusal (initialRtoMs maxRtoMs maxRetransmissions : Nat) : Option String :=
  if initialRtoMs ≤ 0 ∨ maxRtoMs < initialRtoMs then some "invalid RTO range"
  else if maxRetransmissions < 1 then some "maxRetransmissions must be a positive integer"
  else none

/-- The constructor, once it has accepted its options. -/
def new (initialSequence : Seq) (initialRtoMs maxRtoMs maxRetransmissions : Nat) :
    RetransmissionQueue :=
  { sndUna := initialSequence, sndNxt := initialSequence,
    initialRtoMs, maxRtoMs, maxRetransmissions, currentRtoMs := initialRtoMs }

/-- Whether anything waits for an acknowledgement. -/
def hasOutstanding (q : RetransmissionQueue) : Bool := !q.segments.isEmpty

/-- The segment that would be sent again first. -/
def oldest (q : RetransmissionQueue) : Option Segment := q.segments.head?

/-- `armTimer`: a new generation, unless there is nothing to wait for. A pending
timer is replaced. -/
def armTimer (q : RetransmissionQueue) : RetransmissionQueue :=
  if (!q.hasOutstanding && !q.persist) || q.closed || q.exhausted then q
  else
    let generation := q.timerGeneration + 1
    { q with
      timerGeneration := generation
      timer := some { generation, delayMs := q.currentRtoMs }
      scheduled := generation :: q.scheduled }

/-- `clearTimer`: a new generation, so that what the host still holds is
superseded. -/
def clearTimer (q : RetransmissionQueue) : RetransmissionQueue :=
  { q with timerGeneration := q.timerGeneration + 1, timer := none }

/-- `track`: append a segment that follows the last one; without items there is
nothing to track. The Boolean says whether it was added. -/
def track (q : RetransmissionQueue) (sent : SentSegment) :
    Except QueueError (RetransmissionQueue × Bool) :=
  if q.closed || q.exhausted then .error .closedQueue
  else
    let length := RootlessRelay.sequenceLength sent.payload sent.flags
    if length = 0 then .ok (q, false)
    else if sent.seq ≠ q.sndNxt then .error (.nonContiguous q.sndNxt sent.seq)
    else
      let segment : Segment :=
        { seq := sent.seq, payload := sent.payload, flags := sent.flags, sequenceLength := length }
      let q := { q with
        segments := q.segments ++ [segment]
        payloadBytesInFlight := q.payloadBytesInFlight + sent.payload.length
        sndNxt := q.sndNxt + BitVec.ofNat 32 length }
      if q.segments.length = 1 ∧ q.timer = none then .ok (q.armTimer, true) else .ok (q, true)

/-- `consumeSegmentPrefix`: the shortened segment and its consumed data bytes. A
SYN goes first and a FIN last. -/
def consumeSegmentPrefix (segment : Segment) (count : Nat) : Except QueueError (Segment × Nat) :=
  let remaining := count
  let (segment, remaining) :=
    if segment.flags.syn ∧ remaining > 0 then
      ({ segment with
          flags := { segment.flags with syn := false }
          sequenceLength := segment.sequenceLength - 1 }, remaining - 1)
    else (segment, remaining)
  let bytes := min remaining segment.payload.length
  let (segment, remaining, consumedData) :=
    if remaining > 0 ∧ segment.payload.length > 0 then
      ({ segment with
          payload := segment.payload.drop bytes
          sequenceLength := segment.sequenceLength - bytes }, remaining - bytes, bytes)
    else (segment, remaining, 0)
  let (segment, remaining) :=
    if segment.flags.fin ∧ remaining > 0 then
      ({ segment with
          flags := { segment.flags with fin := false }
          sequenceLength := segment.sequenceLength - 1 }, remaining - 1)
    else (segment, remaining)
  if remaining ≠ 0 ∨ segment.sequenceLength = 0 then .error .invalidPartialAck
  else .ok ({ segment with seq := segment.seq + BitVec.ofNat 32 count }, consumedData)

/-- The `while (remaining > 0)` loop of `acknowledge`: what is left of
`segments`, the acknowledged data bytes and `payloadBytesInFlight`. -/
def acknowledgeLoop (remaining ackedDataBytes inFlight : Nat) :
    List Segment → Except QueueError (List Segment × Nat × Nat)
  | [] => if remaining > 0 then .error .ackBeyondTracked else .ok ([], ackedDataBytes, inFlight)
  | segment :: rest =>
    if remaining = 0 then .ok (segment :: rest, ackedDataBytes, inFlight)
    else if remaining ≥ segment.sequenceLength then
      acknowledgeLoop (remaining - segment.sequenceLength)
        (ackedDataBytes + segment.payload.length) (inFlight - segment.payload.length) rest
    else
      match consumeSegmentPrefix segment remaining with
      | .error error => .error error
      | .ok (segment, consumed) =>
        .ok (segment :: rest, ackedDataBytes + consumed, inFlight - consumed)

/-- `acknowledge`: compare the number with what is outstanding, and cut off what
it covers. -/
def acknowledge (q : RetransmissionQueue) (ack : Seq) :
    Except QueueError (RetransmissionQueue × AckResult) :=
  let advance := sequenceDistance ack q.sndUna
  let outstanding := sequenceDistance q.sndNxt q.sndUna
  if advance = 0 then
    let q := if q.persist then { q with timeoutRetransmissions := 0 } else q
    .ok (q, { status := .duplicate, ackedDataBytes := 0 })
  else if advance ≥ HALF_SEQUENCE_SPACE then .ok (q, { status := .stale, ackedDataBytes := 0 })
  else if advance > outstanding then .ok (q, { status := .future, ackedDataBytes := 0 })
  else
    match acknowledgeLoop advance 0 q.payloadBytesInFlight q.segments with
    | .error error => .error error
    | .ok (segments, ackedDataBytes, inFlight) =>
      let q := { q with
        segments
        payloadBytesInFlight := inFlight
        sndUna := ack
        timeoutRetransmissions := 0
        currentRtoMs := if q.persist then q.currentRtoMs else q.initialRtoMs }
      .ok (q.clearTimer.armTimer, { status := .advanced, ackedDataBytes })

/-- `close`: forget everything, and cancel the timer. A closed queue stays
closed. -/
def close (q : RetransmissionQueue) : RetransmissionQueue :=
  if q.closed then q
  else
    { { q with closed := true, persist := false }.clearTimer with
      segments := [], payloadBytesInFlight := 0 }

section Callbacks

variable {σ : Type} (cb : Callbacks σ)

/-- The common failure path: give up, cancel the timer, report to the owner. -/
def exhaust (q : RetransmissionQueue) (owner : σ) (error : Exhaustion) :
    RetransmissionQueue × σ :=
  let q := { q with exhausted := true }.clearTimer
  cb.onExhausted q owner error q.oldest

/-- Call `onRetransmit` for the oldest segment; if it throws, the queue is
exhausted. -/
def emitRetransmission (q : RetransmissionQueue) (owner : σ) (reason : Reason) :
    RetransmissionQueue × σ × Bool :=
  match cb.onRetransmit q owner q.oldest reason with
  | (q, owner, false) => (q, owner, true)
  | (q, owner, true) =>
    let (q, owner) := exhaust cb q owner .callbackThrew
    (q, owner, false)

/-- `fastRetransmit`: send the oldest segment again, and start over with the
timeout. -/
def fastRetransmit (q : RetransmissionQueue) (owner : σ) : RetransmissionQueue × σ × Bool :=
  if q.persist || !q.hasOutstanding || q.closed || q.exhausted then (q, owner, false)
  else
    let q := { q with currentRtoMs := q.initialRtoMs }.clearTimer
    match emitRetransmission cb q owner .fast with
    | (q, owner, false) => (q, owner, false)
    | (q, owner, true) => (q.armTimer, owner, true)

/-- The fields `setPersist` sets, before it arms the timer or sends. -/
def switchPersist (q : RetransmissionQueue) (enabled : Bool) : RetransmissionQueue :=
  { { q with persist := enabled }.clearTimer with
    currentRtoMs := q.initialRtoMs, timeoutRetransmissions := 0 }

/-- `setPersist`: enter or leave persist mode. On leaving it the oldest segment
is sent again. -/
def setPersist (q : RetransmissionQueue) (owner : σ) (enabled : Bool) :
    RetransmissionQueue × σ :=
  if q.closed || q.exhausted || q.persist == enabled then (q, owner)
  else
    let q := q.switchPersist enabled
    if !enabled && q.hasOutstanding then
      let (q, owner, _) := emitRetransmission cb q owner .windowOpen
      (q.armTimer, owner)
    else (q.armTimer, owner)

/-- The head of `segments` is the object `this.oldest.retransmissions++`
updates. -/
def countRetransmission : List Segment → List Segment
  | [] => []
  | segment :: rest => { segment with retransmissions := segment.retransmissions + 1 } :: rest

/-- Exponential back-off up to the maximum, then exactly one timer again. -/
def backOff (q : RetransmissionQueue) : RetransmissionQueue :=
  { q with currentRtoMs := min (q.currentRtoMs * 2) q.maxRtoMs }.armTimer

/-- One timeout more since the last progress. -/
def countTimeout (q : RetransmissionQueue) : RetransmissionQueue :=
  { q with timeoutRetransmissions := q.timeoutRetransmissions + 1 }

/-- `handleTimeout` in persist mode: probe the window, unless the attempts are
used up. -/
def handleProbeTimeout (q : RetransmissionQueue) (owner : σ) : RetransmissionQueue × σ :=
  if q.timeoutRetransmissions ≥ q.maxRetransmissions then exhaust cb q owner .probeLimit
  else
    match cb.onPersistProbe q.countTimeout owner q.oldest with
    | (q, owner, .returned) => (q.clearTimer.backOff, owner)
    -- Transport backpressure is not a missed response from the peer.
    | (q, owner, .refused) =>
      ({ q with timeoutRetransmissions := q.timeoutRetransmissions - 1 }.clearTimer.backOff, owner)
    | (q, owner, .threw) => exhaust cb q owner .callbackThrew

/-- `handleTimeout` outside persist mode. -/
def handleRetransmissionTimeout (q : RetransmissionQueue) (owner : σ) :
    RetransmissionQueue × σ :=
  if !q.hasOutstanding then (q, owner)
  else if q.timeoutRetransmissions ≥ q.maxRetransmissions then
    exhaust cb q owner .retransmissionLimit
  else
    let q := { q.countTimeout with segments := countRetransmission q.segments }
    match emitRetransmission cb q owner .timeout with
    | (q, owner, false) => (q, owner)
    | (q, owner, true) => (q.backOff, owner)

def handleTimeout (q : RetransmissionQueue) (owner : σ) : RetransmissionQueue × σ :=
  if q.closed || q.exhausted then (q, owner)
  else if q.persist then handleProbeTimeout cb q owner
  else handleRetransmissionTimeout cb q owner

/-- The closure `armTimer` hands to `setTimeoutFn`, run by the host once. -/
def fireTimer (q : RetransmissionQueue) (owner : σ) (generation : Nat) :
    RetransmissionQueue × σ :=
  let q := { q with scheduled := q.scheduled.erase generation }
  if generation ≠ q.timerGeneration ∨ q.closed ∨ q.exhausted then (q, owner)
  else handleTimeout cb { q with timer := none } owner

end Callbacks

end RetransmissionQueue

end RootlessRelay
