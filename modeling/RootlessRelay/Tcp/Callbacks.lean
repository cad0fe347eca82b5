import RootlessRelay.Tcp.Transmit

/-!
# The relay's callbacks

The closures the relay hands to a retransmission queue are lawful: they touch
the queue through `track` and `close` only. So the queue of a connection keeps
its bookkeeping and its timer through every method.

The case lemmas below unfold the methods that call back into plain functions on
the connection. Behind them no proof has to follow a callback again:
`fastRetransmit_cases`, `setPersist_cases` and the cases of the timer say what a
method has done to the connection, its queue put back, and name the parts
(`giveUp`, `probe`, `retransmitOldest`) that later lemmas are about.
-/

namespace RootlessRelay

open RetransmissionQueue

namespace Conn

variable (cfg : Settings) (turn : Turn)

section WithQueue

variable (c : Conn) (q : RetransmissionQueue)

@[simp] theorem withQueue_retransmission : (c.withQueue q).send.retransmission = q := rfl
@[simp] theorem withQueue_recv : (c.withQueue q).recv = c.recv := rfl
@[simp] theorem withQueue_state : (c.withQueue q).state = c.state := rfl
@[simp] theorem withQueue_registered : (c.withQueue q).registered = c.registered := rfl
@[simp] theorem withQueue_direction : (c.withQueue q).direction = c.direction := rfl
@[simp] theorem withQueue_sent : (c.withQueue q).sent = c.sent := rfl
@[simp] theorem withQueue_self : c.withQueue c.send.retransmission = c := rfl
@[simp] theorem withQueue_withQueue (q' : RetransmissionQueue) :
    (c.withQueue q).withQueue q' = c.withQueue q' := rfl

end WithQueue

/-- `trackAll` touches the queue through `track` only, also when it throws. -/
theorem trackAll_reentrant (segments : List SentSegment) (c : Conn) :
    match c.trackAll segments with
    | .ok c' => c.send.retransmission.Reentrant c'.send.retransmission
    | .error thrown => c.send.retransmission.Reentrant thrown.conn.send.retransmission := by
  induction segments generalizing c with
  | nil => exact .refl _
  | cons segment rest ih =>
      simp only [trackAll]
      cases htrack : c.send.retransmission.track segment with
      | error error => exact .refl _
      | ok tracked =>
          obtain ⟨q, added⟩ := tracked
          have hrest := ih (c.withQueue q)
          have htrans : ∀ {r}, q.Reentrant r → c.send.retransmission.Reentrant r := by
            intro r hr
            induction hr with
            | refl => exact .track (.refl _) htrack
            | track _ hnext ih => exact .track ih hnext
            | close _ ih => exact .close ih
          dsimp only
          cases hres : (c.withQueue q).trackAll rest <;> rw [hres] at hrest <;> exact htrans hrest

theorem sendTCPLoop_queue (mss : Nat) (flags : Flags) (advance : Bool) (fuel : Nat) (c : Conn)
    (sequence : Seq) (isFirst : Bool) (rest : Bytes) (segments : List SentSegment) :
    (sendTCPLoop cfg mss flags advance fuel c sequence isFirst rest
      segments).1.send.retransmission = c.send.retransmission := by
  induction fuel generalizing c sequence isFirst rest segments with
  | zero => rfl
  | succ fuel ih =>
      simp only [sendTCPLoop]
      split
      · rfl
      · rw [ih]
        rfl

theorem sendTrackedTCP_reentrant (c : Conn) (payload : Bytes) (flags : Flags)
    (sequence : Option Seq) (advance : Bool) :
    match c.sendTrackedTCP cfg payload flags sequence advance with
    | .ok c' => c.send.retransmission.Reentrant c'.send.retransmission
    | .error thrown => c.send.retransmission.Reentrant thrown.conn.send.retransmission := by
  have hsent : (c.sendTCP cfg payload flags sequence advance).1.send.retransmission =
      c.send.retransmission := sendTCPLoop_queue cfg _ _ _ _ _ _ _ _ _
  have hall := trackAll_reentrant (c.sendTCP cfg payload flags sequence advance).2
    (c.sendTCP cfg payload flags sequence advance).1
  rw [hsent] at hall
  exact hall

theorem onTCPCongestionLoss_queue (c : Conn) (reason : Reason) :
    (c.onTCPCongestionLoss cfg reason).send.retransmission = c.send.retransmission := by
  unfold onTCPCongestionLoss
  dsimp only
  split <;> rfl

theorem onRetransmit_reentrant (c : Conn) (segment : Segment) (reason : Reason) :
    c.send.retransmission.Reentrant (c.onRetransmit cfg segment reason).send.retransmission := by
  unfold onRetransmit
  split
  · exact .close (.refl _)
  · dsimp only
    obtain ⟨wires, hwires⟩ := resend_eq cfg
      (if reason ≠ .windowOpen then c.onTCPCongestionLoss cfg reason else c) segment
    rw [hwires, emit_send]
    split
    · rw [onTCPCongestionLoss_queue]
      exact .refl _
    · exact .refl _

/-- A probe calls back into the queue by tracking the segment it sends, if that
takes new sequence numbers. -/
theorem onPersistProbe_reentrant (c : Conn) (segment : Option Segment) :
    c.send.retransmission.Reentrant
      (c.onPersistProbe cfg turn segment).1.send.retransmission := by
  unfold onPersistProbe
  split
  · exact .close (.refl _)
  split
  · exact .refl _
  split
  · rw [sendTCP, sendTCPLoop_queue]
    exact .refl _
  split
  · split
    · exact .refl _
    · rename_i byte queue _
      have hsend := sendTrackedTCP_reentrant cfg (c.withSendQueue queue) byte { ack := true } none
        true
      split <;> rename_i heq <;> rw [heq] at hsend <;> exact hsend
  split
  · have hsend := sendTrackedTCP_reentrant cfg c.markFin [] { fin := true, ack := true } none true
    change match c.sendFin cfg with | .ok c' => _ | .error thrown => _ at hsend
    split <;> rename_i heq <;> rw [heq] at hsend <;> exact hsend
  · exact .refl _

/-- Giving a connection up closes its queue, which is all it does to it. -/
theorem abort_reentrant (c : Conn) (sendReset : Bool) :
    c.send.retransmission.Reentrant (c.abort cfg turn sendReset).send.retransmission := by
  unfold abort
  split
  · unfold abortTCPConnection
    split
    · exact .refl _
    · dsimp only
      split
      · rw [sendTCP_control cfg (.inr rfl)]
        exact .close (.refl _)
      · exact .close (.refl _)
  · unfold abortReverseConnection
    split
    · exact .refl _
    · dsimp only
      split
      · rw [sendTCP_control cfg (.inr rfl)]
        exact .close (.refl _)
      · exact .close (.refl _)

/-- The callbacks of a connection, with the promise the queue relies on. -/
def lawfulCallbacks : LawfulCallbacks Conn where
  toCallbacks := callbacks cfg turn
  onRetransmit_reentrant q c segment reason := by
    cases segment with
    | none => exact .refl _
    | some segment => exact onRetransmit_reentrant cfg (c.withQueue q) segment reason
  onPersistProbe_reentrant q c segment := onPersistProbe_reentrant cfg turn (c.withQueue q) segment
  onExhausted_reentrant q c _ _ := abort_reentrant cfg turn (c.withQueue q) true

/-- `armTimer` on the queue of the connection. -/
def armed (c : Conn) : Conn := c.withQueue c.send.retransmission.armTimer

/-- `fastRetransmit` on an open queue with a segment to repeat: the loss, the
segment, and the timer. -/
theorem fastRetransmit_eq (c : Conn) {segment : Segment}
    (hold : c.send.retransmission.oldest = some segment)
    (hidle : (c.send.retransmission.persist || !c.send.retransmission.hasOutstanding ||
      c.send.retransmission.closed || c.send.retransmission.exhausted) = false) :
    c.fastRetransmit cfg turn =
      ((c.withQueue { c.send.retransmission with
        currentRtoMs := c.send.retransmission.initialRtoMs }.clearTimer).onRetransmit cfg
          segment .fast).armed := by
  unfold fastRetransmit RetransmissionQueue.fastRetransmit
  rw [if_neg (Bool.eq_false_iff.mp hidle)]
  have hcleared : { c.send.retransmission with
      currentRtoMs := c.send.retransmission.initialRtoMs }.clearTimer.oldest = some segment := hold
  simp only [emitRetransmission, hcleared, callbacks]
  rfl

/-- Everything `fastRetransmit` can do: nothing, or one segment again. -/
theorem fastRetransmit_cases (c : Conn) :
    c.fastRetransmit cfg turn = c ∨
    ∃ segment, c.send.retransmission.oldest = some segment ∧
      c.send.retransmission.closed = false ∧ c.send.retransmission.exhausted = false ∧
      c.fastRetransmit cfg turn =
        ((c.withQueue { c.send.retransmission with
          currentRtoMs := c.send.retransmission.initialRtoMs }.clearTimer).onRetransmit cfg
            segment .fast).armed := by
  by_cases hidle : (c.send.retransmission.persist || !c.send.retransmission.hasOutstanding ||
      c.send.retransmission.closed || c.send.retransmission.exhausted) = true
  · unfold fastRetransmit RetransmissionQueue.fastRetransmit
    rw [if_pos hidle]
    exact .inl rfl
  · have hfalse := Bool.eq_false_iff.mpr hidle
    simp only [hasOutstanding, Bool.not_not, Bool.or_eq_true, List.isEmpty_iff, not_or,
      Bool.not_eq_true] at hidle
    obtain ⟨⟨⟨-, hne⟩, hopen⟩, hlive⟩ := hidle
    obtain ⟨segment, rest, hcons⟩ := List.exists_cons_of_ne_nil hne
    have hold : c.send.retransmission.oldest = some segment := by simp [oldest, hcons]
    exact .inr ⟨segment, hold, hopen, hlive, fastRetransmit_eq cfg turn c hold hfalse⟩

/-- Everything `setPersist` can do, by the mode before and the mode that is
asked for. -/
theorem setPersist_cases (c : Conn) (enabled : Bool) :
    ((c.send.retransmission.closed = true ∨ c.send.retransmission.exhausted = true ∨
        c.send.retransmission.persist = enabled) ∧ c.setPersist cfg turn enabled = c) ∨
    (c.send.retransmission.closed = false ∧ c.send.retransmission.exhausted = false ∧
      (enabled = false → c.send.retransmission.oldest = none) ∧
      c.setPersist cfg turn enabled =
        (c.withQueue (c.send.retransmission.switchPersist enabled)).armed) ∨
    ∃ segment, enabled = false ∧ c.send.retransmission.oldest = some segment ∧
      c.send.retransmission.closed = false ∧ c.send.retransmission.exhausted = false ∧
      c.setPersist cfg turn enabled =
        ((c.withQueue (c.send.retransmission.switchPersist enabled)).onRetransmit cfg segment
          .windowOpen).armed := by
  unfold setPersist RetransmissionQueue.setPersist
  by_cases hidle : (c.send.retransmission.closed || c.send.retransmission.exhausted ||
      c.send.retransmission.persist == enabled) = true
  · rw [if_pos hidle]
    exact .inl ⟨by simpa [or_assoc] using hidle, rfl⟩
  · rw [if_neg hidle]
    simp only [Bool.or_eq_true, not_or, Bool.not_eq_true] at hidle
    obtain ⟨⟨hopen, hlive⟩, -⟩ := hidle
    dsimp only
    by_cases hsend : (!enabled &&
        (c.send.retransmission.switchPersist enabled).hasOutstanding) = true
    · rw [if_pos hsend]
      have hne : c.send.retransmission.segments ≠ [] := by
        intro hnil
        simp [switchPersist, hasOutstanding, clearTimer, hnil] at hsend
      obtain ⟨segment, rest, hcons⟩ := List.exists_cons_of_ne_nil hne
      have hold : (c.send.retransmission.switchPersist enabled).oldest = some segment := by
        simp [switchPersist, oldest, clearTimer, hcons]
      refine .inr (.inr ⟨segment, ?_, by simp [oldest, hcons], hopen, hlive, ?_⟩)
      · simp only [Bool.and_eq_true, Bool.not_eq_true'] at hsend
        exact hsend.1
      · simp only [emitRetransmission, hold, callbacks]
        rfl
    · rw [if_neg hsend]
      refine .inr (.inl ⟨hopen, hlive, fun hoff => ?_, rfl⟩)
      rw [hoff, Bool.not_false, Bool.true_and, Bool.not_eq_true] at hsend
      simpa [switchPersist, hasOutstanding, clearTimer, oldest] using hsend

/-- `onExhausted`, with the queue as the failing method has left it: the
connection is aborted. -/
def giveUp (c : Conn) : Conn :=
  (c.withQueue { c.send.retransmission with exhausted := true }.clearTimer).abort cfg turn true

/-- The probe of `handleTimeout` in persist mode, and what the queue does after
it. -/
def probe (c : Conn) : Conn :=
  match (c.withQueue c.send.retransmission.countTimeout).onPersistProbe cfg turn
      c.send.retransmission.oldest with
  | (c, .returned) => c.withQueue c.send.retransmission.clearTimer.backOff
  | (c, .refused) =>
    c.withQueue { c.send.retransmission with
      timeoutRetransmissions := c.send.retransmission.timeoutRetransmissions - 1 }.clearTimer.backOff
  | (c, .threw) => c.giveUp cfg turn

/-- The retransmission of `handleTimeout` outside persist mode, and the back-off
behind it. -/
def retransmitOldest (c : Conn) (segment : Segment) : Conn :=
  let c := (c.withQueue { c.send.retransmission.countTimeout with
    segments := countRetransmission c.send.retransmission.segments }).onRetransmit cfg
      { segment with retransmissions := segment.retransmissions + 1 } .timeout
  c.withQueue c.send.retransmission.backOff

/-- `handleTimeout` on the connection: probe, retransmit, or give up. -/
def onTimeout (c : Conn) : Conn :=
  let q := c.send.retransmission
  if q.persist then
    if q.timeoutRetransmissions ≥ q.maxRetransmissions then c.giveUp cfg turn else c.probe cfg turn
  else
    match q.oldest with
    | none => c
    | some segment =>
      if q.timeoutRetransmissions ≥ q.maxRetransmissions then c.giveUp cfg turn
      else c.retransmitOldest cfg segment

/-- The queue when the current timer closure has started to run: its handle is
gone. -/
def timerStarted (c : Conn) (generation : Nat) : Conn :=
  c.withQueue { c.send.retransmission with
    scheduled := c.send.retransmission.scheduled.erase generation, timer := none }

theorem fireRetransmissionTimer_superseded {c : Conn} {generation : Nat}
    (h : generation ≠ c.send.retransmission.timerGeneration ∨
      c.send.retransmission.closed = true ∨ c.send.retransmission.exhausted = true) :
    c.fireRetransmissionTimer cfg turn generation =
      c.withQueue { c.send.retransmission with
        scheduled := c.send.retransmission.scheduled.erase generation } := by
  unfold fireRetransmissionTimer RetransmissionQueue.fireTimer
  dsimp only
  rw [if_pos h]

/-- The connection a method leaves behind, with the queue put back. -/
def settled (result : RetransmissionQueue × Conn) : Conn := result.2.withQueue result.1

theorem handleProbeTimeout_settled (q : RetransmissionQueue) (c : Conn) :
    settled (handleProbeTimeout (callbacks cfg turn) q c) =
      if q.timeoutRetransmissions ≥ q.maxRetransmissions then (c.withQueue q).giveUp cfg turn
      else (c.withQueue q).probe cfg turn := by
  unfold handleProbeTimeout
  split
  · rfl
  · unfold probe
    simp only [callbacks, withQueue_retransmission, withQueue_withQueue]
    cases (c.withQueue q.countTimeout).onPersistProbe cfg turn q.oldest with
    | mk c result => cases result <;> rfl

/-- The timeout of the queue, with the owner's callbacks, in terms of the
connection. -/
theorem handleRetransmissionTimeout_settled (q : RetransmissionQueue) (c : Conn) :
    settled (handleRetransmissionTimeout (callbacks cfg turn) q c) =
      match q.oldest with
      | none => c.withQueue q
      | some segment =>
        if q.timeoutRetransmissions ≥ q.maxRetransmissions then (c.withQueue q).giveUp cfg turn
        else (c.withQueue q).retransmitOldest cfg segment := by
  unfold handleRetransmissionTimeout
  obtain ⟨una, nxt, persist, initial, most, budget, rto, count, segments, fly, timer, generation,
    scheduled, closed, exhausted⟩ := q
  cases segments with
  | nil => rfl
  | cons segment rest =>
      simp only [hasOutstanding, List.isEmpty_cons, Bool.not_false, Bool.not_true, oldest,
        List.head?_cons]
      split
      · contradiction
      split <;> rfl

theorem fireRetransmissionTimer_live {c : Conn} (hopen : c.send.retransmission.closed = false)
    (hlive : c.send.retransmission.exhausted = false) :
    c.fireRetransmissionTimer cfg turn c.send.retransmission.timerGeneration =
      (c.timerStarted c.send.retransmission.timerGeneration).onTimeout cfg turn := by
  unfold fireRetransmissionTimer RetransmissionQueue.fireTimer
  dsimp only
  rw [if_neg (by simp [hopen, hlive])]
  unfold handleTimeout
  rw [if_neg (by simp [hopen, hlive])]
  unfold onTimeout timerStarted
  dsimp only [withQueue_retransmission]
  split
  · exact handleProbeTimeout_settled cfg turn _ c
  · exact handleRetransmissionTimeout_settled cfg turn _ c

end Conn

end RootlessRelay
