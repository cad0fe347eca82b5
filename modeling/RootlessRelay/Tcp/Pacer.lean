import RootlessRelay.Basic

/-!
# The pacer

`TCPPacer` of `tcp_pacer.js`. The clock is the argument `now`. The timer is a
flag: its only callback clears `blocked` and resumes the connection.

A pacer does not send. It is asked once for each segment and answers whether the
sender has to stop, and it is told of acknowledgements and losses, by which the
size of its bursts adapts. Time between two calls is a natural number of
milliseconds; what a run of calls promises about it is proved in `PacerRuns`.
-/

namespace RootlessRelay

/-- The fields of a pacer. The counters begin at zero, and nothing has been
sent. -/
structure Pacer where
  mode : PacingMode
  initialBurstSegments : Nat
  maxBurstSegments : Nat
  intervalMs : Nat
  burstSegments : Nat
  segmentsInBurst : Nat := 0
  ackedBytes : Nat := 0
  lastSegmentAt : Option Nat := none
  blocked : Bool := false
  timer : Bool := false
  deriving DecidableEq, Repr

namespace Pacer

/-- The constructor. Its range checks are the fields of `Settings`. -/
def new (cfg : Settings) : Pacer :=
  { mode := if cfg.sendBurstIntervalMs = 0 then .off else cfg.pacingMode
    initialBurstSegments := cfg.sendBurstSegments
    maxBurstSegments := cfg.sendBurstMaxSegments
    intervalMs := cfg.sendBurstIntervalMs
    burstSegments := cfg.sendBurstSegments }

/-- The pacer lets everything pass: by its mode, or because the interval is
zero. -/
def isOff (p : Pacer) : Bool := p.mode = .off

/-- `noteAck`: in adaptive mode a window's worth of acknowledged bytes lets the
burst grow. -/
def noteAck (p : Pacer) (ackedBytes congestionWindowBytes : Nat) : Pacer :=
  if p.mode ≠ .adaptive ∨ ackedBytes = 0 then p
  else
    let threshold := max 1 congestionWindowBytes
    let p := { p with ackedBytes := p.ackedBytes + ackedBytes }
    if p.ackedBytes < threshold ∨ p.burstSegments ≥ p.maxBurstSegments then p
    else
      { p with
        ackedBytes := p.ackedBytes - threshold
        burstSegments := p.burstSegments + 1 }

/-- `noteLoss`: in adaptive mode a loss halves the burst, but not below where it
began. -/
def noteLoss (p : Pacer) : Pacer :=
  let p := { p with ackedBytes := 0 }
  if p.mode ≠ .adaptive then p
  else { p with burstSegments := max p.initialBurstSegments (p.burstSegments / 2) }

/-- The last segment is at least one interval old. Before the first segment
there is no such interval. -/
def idleAt (p : Pacer) (now : Nat) : Bool :=
  match p.lastSegmentAt with
  | none => false
  | some last => decide (now - last ≥ p.intervalMs)

/-- Count a segment, in a new burst when the last one is old enough. -/
def countSegment (p : Pacer) (now : Nat) : Pacer :=
  { p with
    lastSegmentAt := some now
    segmentsInBurst := (if p.idleAt now then 0 else p.segmentsInBurst) + 1 }

/-- `noteSegment`. The second component is the returned Boolean: the sender has
to stop, and the timer is set. -/
def noteSegment (p : Pacer) (now : Nat) : Pacer × Bool :=
  if p.isOff then (p, false)
  else if p.blocked then (p, true)
  else
    let p := p.countSegment now
    if p.segmentsInBurst < p.burstSegments then (p, false)
    else ({ p with segmentsInBurst := 0, blocked := true, timer := true }, true)

/-- The timer callback, before it calls `onReady`. -/
def fireTimer (p : Pacer) : Pacer := { p with timer := false, blocked := false }

/-- `close`: the timer is cancelled and nothing is blocked. -/
def close (p : Pacer) : Pacer :=
  { p with timer := false, blocked := false, segmentsInBurst := 0 }

/-- `blocked` is set exactly while the timer is pending, so a sender that is
stopped is also resumed. -/
def TimerExact (p : Pacer) : Prop := p.timer = p.blocked

theorem new_timerExact (cfg : Settings) : (new cfg).TimerExact := rfl

theorem noteAck_timerExact {p : Pacer} (h : p.TimerExact) (acked window : Nat) :
    (p.noteAck acked window).TimerExact := by
  unfold noteAck
  split
  · exact h
  · dsimp only
    split <;> exact h

theorem noteLoss_timerExact {p : Pacer} (h : p.TimerExact) : p.noteLoss.TimerExact := by
  unfold noteLoss
  dsimp only
  split <;> exact h

theorem noteSegment_timerExact {p : Pacer} (h : p.TimerExact) (now : Nat) :
    (p.noteSegment now).1.TimerExact := by
  unfold noteSegment
  split
  · exact h
  split
  · exact h
  dsimp only
  split
  · exact h
  · rfl

theorem fireTimer_timerExact (p : Pacer) : p.fireTimer.TimerExact := rfl

theorem close_timerExact (p : Pacer) : p.close.TimerExact := rfl

end Pacer

end RootlessRelay
