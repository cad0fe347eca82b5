import RootlessRelay.Library.SequenceSpace

/-!
# Bytes, TCP flags and relay settings

Sequence numbers are 32-bit words: every `>>> 0` of the source is implicit in
the type. Buffers are lists of bytes. Ports are natural numbers here because
they are read from 16-bit fields; where a number comes from somewhere else and
may be out of range, the structure that holds it says so.

`Settings` holds the start-up constants of `relay.js`, together with the range
checks the relay makes before it listens. Two groups of constants are read
without a check. The receive window has to fit into 16 bits only where a SYN-ACK
announces it, and the settings of the retransmission timer are tested by the
constructor of the retransmission queue, once for every connection
(`Settings.RtoAccepted`).
-/

namespace RootlessRelay

/-- One byte of a buffer, as it is read with `readUInt8`. -/
abbrev Byte := UInt8

/-- A `Buffer`; a view into another buffer is a list of its own. -/
abbrev Bytes := List Byte

/-- A sequence or acknowledgement number, already reduced by `>>> 0`. Sums and
differences wrap as they do in the source. -/
abbrev Seq := BitVec 32

/-- An address as the number of its four octets. The relay keeps addresses as
dotted texts; the two forms are related where texts matter. -/
abbrev IPv4 := BitVec 32

/-- A port that has been read from a header or handed out by the host. -/
abbrev Port := Nat

/-- The flag object handed to `sendTCP` and kept with a tracked segment. A flag
that the object does not mention is absent, and so is the window size. -/
structure Flags where
  syn : Bool := false
  fin : Bool := false
  rst : Bool := false
  psh : Bool := false
  ack : Bool := false
  windowSize : Option Nat := none
  deriving DecidableEq, Repr

/-- `conn.tx`: the addresses the relay writes into the segments of a connection.
A reverse connection goes to the port that a rule names, which nothing has
checked. -/
structure Tuple where
  srcPort : Port
  dstPort : Int
  srcIP : IPv4
  dstIP : IPv4
  deriving DecidableEq, Repr

/-- `TCP_PACING_MODE`: the pacer estimates its rate, or is given one, or lets
everything pass. -/
inductive PacingMode
  | adaptive
  | fixed
  | off
  deriving DecidableEq, Repr

/-- The segment size for a peer that has announced none. -/
def TCP_FALLBACK_MSS : Nat := 536

/-- `seqLessThan`: half-space comparison of 32-bit sequence numbers. A
difference of exactly half the space counts as less, in both directions. -/
def seqLessThan (a b : Seq) : Bool := decide ((a - b).toNat > 0x7FFFFFFF)

/-- `seqDiff`: forward distance, clamped to zero when `a` lies behind `b` in the
sense of `seqLessThan`. -/
def seqDiff (a b : Seq) : Nat :=
  if (a - b).toNat > 0x7FFFFFFF then 0 else (a - b).toNat

theorem seqLessThan_eq_precedes (a b : Seq) :
    seqLessThan a b = SequenceSpace.precedes a b := by
  simp only [seqLessThan, SequenceSpace.precedes, SequenceSpace.distance]
  exact decide_eq_decide.mpr (by omega)

/-- The constants `relay.js` reads from its environment. The fields that are
propositions are the checks (or the `Math.max` clamps) made at start-up. There
is none for `TCP_WINDOW_SIZE` and none for the three settings of the
retransmission timer. -/
structure Settings where
  vmMtu : Nat := 1500
  tcpWindowSize : Nat := 10240
  pacingMode : PacingMode := .adaptive
  sendBurstSegments : Nat := 3
  sendBurstMaxSegments : Nat := 8
  sendBurstIntervalMs : Nat := 6
  initialCwndBytes : Nat := 10240
  sendQueueHighWaterBytes : Nat := 1048576
  ackEverySegments : Nat := 2
  ackDelayMs : Nat := 10
  rtoInitialMs : Nat := 1000
  rtoMaxMs : Nat := 60000
  rtoMaxRetransmissions : Nat := 4
  rateLimitBps : Nat := 1048576
  gatewayIP : IPv4 := 0x0a000202#32
  mtu_range : 576 ≤ vmMtu ∧ vmMtu ≤ 65535 := by decide
  burst_pos : 1 ≤ sendBurstSegments := by decide
  burst_le_max : sendBurstSegments ≤ sendBurstMaxSegments := by decide
  cwnd_clamped : 1460 ≤ initialCwndBytes := by decide
  highWater_clamped : 1460 ≤ sendQueueHighWaterBytes := by decide
  ackEvery_pos : 1 ≤ ackEverySegments := by decide

namespace Settings

/-- `TCP_MSS`: what the MTU of the VM leaves after two headers without options. -/
def TCP_MSS (cfg : Settings) : Nat := cfg.vmMtu - 40

/-- The mark at which a paused source is resumed: half of the high-water mark,
rounded down. -/
def sendQueueLowWaterBytes (cfg : Settings) : Nat := cfg.sendQueueHighWaterBytes / 2

/-- The span of payload `bufferTCPOutOfOrder` is willing to hold: the receive
window, and never more than 16 bits can announce. -/
def receiveCapacity (cfg : Settings) : Nat := min 0xffff cfg.tcpWindowSize

/-- What the constructor of `TCPRetransmissionQueue` asks of the settings. The
relay starts without it, and then no connection can be opened. -/
def RtoAccepted (cfg : Settings) : Prop :=
  (0 < cfg.rtoInitialMs ∧ cfg.rtoInitialMs ≤ cfg.rtoMaxMs) ∧ 1 ≤ cfg.rtoMaxRetransmissions

instance (cfg : Settings) : Decidable cfg.RtoAccepted := inferInstanceAs (Decidable (_ ∧ _))

theorem TCP_MSS_pos (cfg : Settings) : 0 < cfg.TCP_MSS := by
  have := cfg.mtu_range
  simp only [TCP_MSS]
  omega

theorem lowWater_lt_highWater (cfg : Settings) :
    cfg.sendQueueLowWaterBytes < cfg.sendQueueHighWaterBytes := by
  have := cfg.highWater_clamped
  simp only [sendQueueLowWaterBytes]
  omega

end Settings

end RootlessRelay
