import RootlessRelay.SlidingWindow
import RootlessRelay.Tcp.FlightBound
import RootlessRelay.Tcp.Pushed

/-!
# The limiter against the send loop

The send loop asks the limiter for a whole segment at a time, and the limiter
compares the request with the budget of a whole window. A request within that
budget is granted once the window is empty. A larger one never is, however long
the connection waits.

This happens where the budget of a second is below one segment: the connection
then starves as soon as it has a segment's worth of data. `Unhindered` says that
nothing but the limiter stands in the way, so that the result is about the
limiter alone.
-/

namespace RootlessRelay

open SlidingLog SendStream

namespace NaiveLimiter

theorem after_settings (n : NaiveLimiter) (calls : List LimiterCall) :
    (n.after calls).maxBytes = n.maxBytes ∧ (n.after calls).windowMs = n.windowMs := by
  induction calls generalizing n with
  | nil => exact ⟨rfl, rfl⟩
  | cons call rest ih =>
      cases call with
      | tryConsume now bytes => exact ih _
      | usage now => exact ih _

end NaiveLimiter

namespace SlidingWindowRateLimiter

/-- With nothing accepted in the last window, the limiter grants what its budget
covers. -/
theorem tryConsume_idle {maxBytes windowMs now now' : Nat} {calls : List LimiterCall}
    (hclock : Clocked 0 (calls ++ [.usage now]))
    (hidle : total windowMs (NaiveLimiter.after { maxBytes, windowMs } calls).log now = 0)
    (hle : now ≤ now') (bytes : Nat) :
    ((after { maxBytes, windowMs } calls).tryConsume now' bytes).2 = decide (bytes ≤ maxBytes) := by
  obtain ⟨clock, hrepresents, hlater⟩ := (represents_new maxBytes windowMs).after hclock
  have hnow : clock ≤ now := hlater.cons.1
  obtain ⟨hmax, hwindow⟩ := NaiveLimiter.after_settings { maxBytes, windowMs } calls
  have hold : ∀ e ∈ (NaiveLimiter.after { maxBytes, windowMs } calls).log, e.time ≤ now :=
    fun e he => (hrepresents.logOld e he).trans hnow
  have hstill : total windowMs (NaiveLimiter.after { maxBytes, windowMs } calls).log now' = 0 :=
    Nat.le_zero.mp ((total_le_total hold hle).trans_eq hidle)
  rw [(hrepresents.tryConsume (hnow.trans hle) bytes).2, hmax, hwindow]
  unfold grant
  rw [hstill, Nat.zero_add]
  split
  · rename_i hfits
    exact (decide_eq_true hfits).symm
  · rename_i hover
    exact (decide_eq_false hover).symm

end SlidingWindowRateLimiter

namespace Conn

variable {cfg : Settings} {turn : Turn} {c c' c'' : Conn}

/-- Sending never refills the queue. -/
theorem Evolves.sendQueueBytes_le (h : Evolves cfg c c') (hs : c.Sending cfg) :
    c'.send.sendQueueBytes ≤ c.send.sendQueueBytes := by
  obtain ⟨labels, hrun⟩ := h.moves
  obtain ⟨rest, hrest⟩ := history_prefix_of_reaches ⟨labels, hrun.unrestrict⟩
  have hbefore := congrArg List.length hs.conserved
  have hafter := congrArg List.length h.sending.conserved
  have hsame : c'.send.enqueued = c.send.enqueued := congrArg Frame.enqueued h.frame
  rw [← hrest, List.filterMap_append] at hafter
  simp only [List.length_append, stream, hsame] at hbefore hafter
  rw [hs.queueBytes, h.sending.queueBytes]
  simp only [State.history] at hbefore hafter
  omega

/-- Bytes of the send queue have gone out, in a segment that starts at
`relaySeq`. -/
structure Transmits (c c' : Conn) : Prop where
  shorter : c'.send.sendQueueBytes < c.send.sendQueueBytes
  segment : ∃ wires wire, c'.sent = c.sent ++ wires ∧ wire ∈ wires ∧
    wire.sequence = c.send.relaySeq ∧ wire.payload ≠ []

/-- What comes before and after does not matter. -/
theorem Transmits.widen {b b' : Conn} (h : Transmits c c')
    (hbytes : c.send.sendQueueBytes = b.send.sendQueueBytes)
    (hseq : c.send.relaySeq = b.send.relaySeq) (hbefore : ∃ wires, c.sent = b.sent ++ wires)
    (hle : b'.send.sendQueueBytes ≤ c'.send.sendQueueBytes)
    (hafter : ∃ wires, b'.sent = c'.sent ++ wires) : Transmits b b' := by
  obtain ⟨before, hbefore⟩ := hbefore
  obtain ⟨after, hafter⟩ := hafter
  obtain ⟨wires, wire, hsent, hmem, hstart, hpayload⟩ := h.segment
  refine ⟨hbytes ▸ hle.trans_lt h.shorter, before ++ wires ++ after, wire, ?_, ?_, ?_, hpayload⟩
  · rw [hafter, hsent, hbefore]
    simp only [List.append_assoc]
  · exact List.mem_append_left _ (List.mem_append_right _ hmem)
  · rw [hstart, hseq]

/-- Sending from the head of the queue transmits. -/
theorem sendQueued_transmits (h : c.Sending cfg) {toSend : Nat} (hpos : 0 < toSend)
    (hmss : toSend ≤ c.tcpMss cfg) (hle : toSend ≤ c.send.sendQueueBytes)
    (hok : c.sendQueued cfg toSend = .ok c') : Transmits c c' := by
  obtain ⟨left, -, -, -, htaken⟩ := sendQueued_eq h hpos hmss hle
  obtain rfl := Except.ok.inj (htaken.symm.trans hok)
  have hless : c.send.sendQueueBytes - toSend < c.send.sendQueueBytes := by omega
  refine ⟨hless, _, _, rfl, List.mem_singleton_self _, rfl, fun hnil => ?_⟩
  have hlen : (c.send.sendQueue.flatten.take toSend).length = toSend :=
    List.length_take_of_le (h.queueBytes ▸ hle)
  have hnone : c.send.sendQueue.flatten.take toSend = [] := hnil
  rw [hnone, List.length_nil] at hlen
  omega

/-- How many segments go out before the loop begins. An open window ends persist
mode, and the oldest tracked segment is then repeated, cut by the MSS. -/
def reopened (cfg : Settings) (c : Conn) : Nat :=
  if c.send.retransmission.persist && !c.wantsPersist && !c.send.retransmission.closed &&
      !c.send.retransmission.exhausted then
    match c.send.retransmission.oldest with
    | none => 0
    | some segment => (segment.payload.length - 1) / c.tcpMss cfg + 1
  else 0

/-- A retransmission is cut into chunks of one MSS each, the last one aside. -/
theorem sendTCPLoop_resend_length (cfg : Settings) {mss : Nat} (hmss : 0 < mss) (flags : Flags)
    {fuel : Nat} (c : Conn) (sequence : Seq) (isFirst : Bool) {rest : Bytes}
    (hfuel : rest.length < fuel) (segments : List SentSegment) :
    ∃ wires, (sendTCPLoop cfg mss flags false fuel c sequence isFirst rest segments).1 =
      c.emit wires ∧ wires.length = (rest.length - 1) / mss + 1 := by
  induction fuel generalizing c sequence isFirst rest segments with
  | zero => cases hfuel
  | succ fuel ih =>
      unfold sendTCPLoop
      dsimp only
      rw [sendChunk_resend]
      by_cases hlast : rest.length ≤ mss
      · rw [if_pos (by simp [List.drop_of_length_le hlast])]
        exact ⟨_, rfl, by rw [Nat.div_eq_of_lt (by omega)]; rfl⟩
      · rw [if_neg (by simpa using hlast)]
        have hleft : (rest.drop mss).length < fuel := by
          rw [List.length_drop]
          omega
        obtain ⟨wires, hloop, hlen⟩ := ih (c.emit [c.wire cfg sequence (rest.take mss) _])
          _ _ hleft _
        refine ⟨_, hloop.trans (emit_emit _ _ _), ?_⟩
        have hsplit : rest.length - 1 = (rest.length - mss - 1) + mss := by omega
        rw [List.length_append, hlen, List.length_drop, hsplit, Nat.add_div_right _ hmss,
          List.length_singleton, Nat.add_comm 1]

/-- `setPersist` as the send loop calls it: a segment may be repeated, nothing
else is sent. -/
theorem setPersist_changes (cfg : Settings) (turn : Turn) (hreg : c.registered = true) :
    ∃ wires q, c.send.retransmission.SameStream q ∧ wires.length = c.reopened cfg ∧
      c.setPersist cfg turn c.wantsPersist = (c.emit wires).withQueue q := by
  have hswitched :=
    RetransmissionQueue.switchPersist_sameStream c.send.retransmission c.wantsPersist
  by_cases hsame : c.send.retransmission.persist = c.wantsPersist
  · have hnone : c.reopened cfg = 0 := if_neg (by simp [hsame])
    refine ⟨[], c.send.retransmission, .of_segments rfl rfl rfl rfl rfl rfl, hnone.symm, ?_⟩
    rw [setPersist_same cfg turn hsame, emit_nil]
    rfl
  obtain ⟨hidle, he⟩ | ⟨-, -, hempty, he⟩ | ⟨segment, hoff, hold, hopen, hlive, he⟩ :=
    setPersist_cases cfg turn c c.wantsPersist
  · have hnone : c.reopened cfg = 0 := if_neg (by
      rcases hidle with hclosed | hexhausted | hon
      · simp [hclosed]
      · simp [hexhausted]
      · exact absurd hon hsame)
    refine ⟨[], c.send.retransmission, .of_segments rfl rfl rfl rfl rfl rfl, hnone.symm, ?_⟩
    rw [he, emit_nil]
    rfl
  · have hnone : c.reopened cfg = 0 := by
      unfold reopened
      split
      · rename_i hleaves
        simp only [Bool.and_eq_true, Bool.not_eq_true'] at hleaves
        rw [hempty hleaves.1.1.2]
      · rfl
    refine ⟨[], _, hswitched.armTimer, hnone.symm, ?_⟩
    rw [he, emit_nil]
    rfl
  · have hon : c.send.retransmission.persist = true := by
      rw [hoff] at hsame
      simpa using hsame
    have hcount : c.reopened cfg = (segment.payload.length - 1) / c.tcpMss cfg + 1 := by
      unfold reopened
      rw [if_pos (by simp [hon, hoff, hopen, hlive]), hold]
    obtain ⟨wires, hwires, hlen⟩ := sendTCPLoop_resend_length cfg (tcpMss_pos cfg c)
      segment.flags (c.withQueue (c.send.retransmission.switchPersist c.wantsPersist))
      segment.seq true (Nat.lt_succ_self segment.payload.length) []
    have hresent : (c.withQueue (c.send.retransmission.switchPersist c.wantsPersist)).onRetransmit
        cfg segment .windowOpen =
          (c.withQueue (c.send.retransmission.switchPersist c.wantsPersist)).emit wires := by
      unfold onRetransmit
      rw [if_neg (by simp [hreg])]
      exact hwires
    refine ⟨wires, _, hswitched.armTimer, hlen.trans hcount.symm, ?_⟩
    rw [he, hresent]
    rfl

/-- The bytes the send loop asks the limiter for: one segment, or what is
queued, or what the windows leave. -/
def request (cfg : Settings) (c : Conn) : Nat :=
  min (c.tcpMss cfg) (min c.send.sendQueueBytes (c.available cfg))

/-- An iteration that comes as far as the limiter. -/
theorem drainStep_eq (cfg : Settings) (turn : Turn) (hreg : c.registered = true)
    (hqueue : c.send.sendQueue ≠ []) (hws : turn.bufferedAmount c.sent.length ≤ 32768)
    (hroom : 0 < c.request cfg) (rateLimited : Bool) (cooperativeSegments : Nat) :
    c.drainStep cfg turn rateLimited cooperativeSegments =
      c.isTCPCongestionRecoveryActive.1.sendStep cfg turn rateLimited cooperativeSegments
        (c.available cfg) (c.request cfg) := by
  obtain ⟨recoveryUntil, he⟩ := isTCPCongestionRecoveryActive_eq c
  have hactive := isTCPCongestionRecoveryActive_snd c
  unfold drainStep
  rw [if_neg (by simp [hreg]), if_neg hqueue, if_neg (Nat.not_lt.mpr hws)]
  generalize c.isTCPCongestionRecoveryActive = result at he hactive
  obtain ⟨c₁, recovering⟩ := result
  obtain rfl : c₁ = _ := he
  obtain rfl : recovering = c.recoveryActive := hactive
  exact if_neg (Nat.pos_iff_ne_zero.mp hroom)

/-- A refused request leaves the bytes in the queue and schedules a retry. -/
theorem sendStep_refused {cooperativeSegments available toSend : Nat}
    (hrefused : (c.rateLimiter.tryConsume (turn.now c.sent.length) toSend).2 = false) :
    ∃ c', c.sendStep cfg turn true cooperativeSegments available toSend = .ok (c', false) ∧
      c'.send.sendQueueBytes = c.send.sendQueueBytes ∧
      c'.send.rateRetries = c.send.rateRetries + 1 := by
  unfold sendStep tryConsume
  generalize c.rateLimiter.tryConsume (turn.now c.sent.length) toSend = admission at hrefused
  obtain ⟨rateLimiter, admitted⟩ := admission
  obtain rfl : admitted = false := hrefused
  exact ⟨_, rfl, rfl, rfl⟩

/-- A granted request is sent. -/
theorem sendStep_transmits (h : c.Sending cfg) (hreg : c.registered = true)
    (hstate : c.state ≠ .synSent) {cooperativeSegments available toSend : Nat}
    (hpos : 0 < toSend) (hmss : toSend ≤ c.tcpMss cfg) (hle : toSend ≤ c.send.sendQueueBytes)
    (hfly : c.send.retransmission.payloadBytesInFlight + toSend ≤ c.send.vmWindow)
    (hgranted : (c.rateLimiter.tryConsume (turn.now c.sent.length) toSend).2 = true) :
    ∃ c' goesOn, c.sendStep cfg turn true cooperativeSegments available toSend =
      .ok (c', goesOn) ∧ IterationSpec cfg c (c', goesOn) ∧ Transmits c c' := by
  obtain ⟨⟨c', goesOn⟩, hok, hspec⟩ := sendStep_spec turn true cooperativeSegments available h
    hreg hstate hpos hmss hle hfly
  refine ⟨c', goesOn, hok, hspec, ?_⟩
  unfold sendStep tryConsume at hok
  generalize c.rateLimiter.tryConsume (turn.now c.sent.length) toSend = admission at hgranted hok
  obtain ⟨rateLimiter, admitted⟩ := admission
  obtain rfl : admitted = true := hgranted
  have hlent : ({ c with rateLimiter } : Conn).Sending cfg := { h with }
  simp only [if_true, Bool.not_true, Bool.false_eq_true, if_false] at hok
  split at hok
  · cases hok
  rename_i c₁ hsend
  have hsent := sendQueued_transmits hlent hpos hmss hle hsend
  have hexit : ∀ d : Conn, d.send.sendQueueBytes = c₁.send.sendQueueBytes →
      (∃ wires, d.sent = c₁.sent ++ wires) → Transmits c d := fun d hbytes hafter =>
    hsent.widen rfl rfl ⟨[], (List.append_nil _).symm⟩ hbytes.le hafter
  split at hok
  · cases hok
    exact hexit _ rfl ⟨[], (List.append_nil _).symm⟩
  split at hok
  · generalize hfin : (c₁.notePacedTCPSegment turn).1.stopSending.maybeFin cfg = outcome at hok
    cases outcome with
    | error thrown => cases hok
    | ok d =>
        cases hok
        obtain ⟨state, wires, relaySeq, retransmission, pendingFin, finSent, recoveryUntil, hd⟩ :=
          maybeFin_changes hfin
        rw [hd]
        exact hexit _ rfl ⟨wires, rfl⟩
  split at hok
  · cases hok
    exact hexit _ rfl ⟨[], (List.append_nil _).symm⟩
  · cases hok
    exact hexit _ rfl ⟨[], (List.append_nil _).symm⟩

/-- Bytes are queued, the windows leave room for them outside recovery, and the
pacer does not hold them back. -/
structure Unhindered (c : Conn) : Prop where
  current : c.Current
  outbound : c.direction = .outbound
  past : c.state ≠ .synSent
  queued : c.send.sendQueue ≠ []
  notRecovering : c.recoveryActive = false
  allowance : c.send.retransmission.payloadBytesInFlight <
    min c.send.vmWindow c.send.congestionWindow
  unpaced : c.send.pacer.blocked = false

instance (c : Conn) : Decidable c.Unhindered :=
  decidable_of_iff ((c.registered = true ∧ c.state ≠ .closed) ∧ c.direction = .outbound ∧
      c.state ≠ .synSent ∧ c.send.sendQueue ≠ [] ∧ c.recoveryActive = false ∧
      c.send.retransmission.payloadBytesInFlight < min c.send.vmWindow c.send.congestionWindow ∧
      c.send.pacer.blocked = false)
    ⟨fun ⟨h₁, h₂, h₃, h₄, h₅, h₆, h₇⟩ => ⟨h₁, h₂, h₃, h₄, h₅, h₆, h₇⟩,
      fun ⟨h₁, h₂, h₃, h₄, h₅, h₆, h₇⟩ => ⟨h₁, h₂, h₃, h₄, h₅, h₆, h₇⟩⟩

/-- The session's limiter has accepted no bytes in the second that ends at
`now`. -/
def LimiterIdle (cfg : Settings) (r : SlidingWindowRateLimiter) (now : Nat) : Prop :=
  ∃ calls, r = cfg.rateLimiter.after calls ∧
    SlidingWindowRateLimiter.Clocked 0 (calls ++ [.usage now]) ∧
    total 1000 (NaiveLimiter.after { maxBytes := cfg.rateLimitBps, windowMs := 1000 } calls).log
      now = 0

theorem LimiterIdle.new (cfg : Settings) (now : Nat) : LimiterIdle cfg cfg.rateLimiter now := by
  refine ⟨[], rfl, ?_, rfl⟩
  change [0, now].Pairwise (· ≤ ·)
  simp

/-- An idle limiter answers by the size of the request alone. -/
theorem LimiterIdle.tryConsume {r : SlidingWindowRateLimiter} {now now' : Nat}
    (h : LimiterIdle cfg r now) (hle : now ≤ now') (bytes : Nat) :
    (r.tryConsume now' bytes).2 = decide (bytes ≤ cfg.rateLimitBps) := by
  obtain ⟨calls, rfl, hclock, hidle⟩ := h
  exact SlidingWindowRateLimiter.tryConsume_idle hclock hidle hle bytes

theorem available_congr {q : RetransmissionQueue} (hq : c.send.retransmission.SameStream q)
    (wires : List WireSegment) :
    ((c.emit wires).withQueue q).available cfg = c.available cfg := by
  simp only [available, recoveryActive, tcpSendLimit, withQueue, emit, hq.sndUna, hq.inFlight]
  rfl

theorem request_congr {q : RetransmissionQueue} (hq : c.send.retransmission.SameStream q)
    (wires : List WireSegment) : ((c.emit wires).withQueue q).request cfg = c.request cfg := by
  unfold request
  rw [available_congr hq wires]
  rfl

/-- Outside recovery, with room in both windows, the loop has something to ask
for. -/
theorem Unhindered.request_eq (h : Unhindered c) : c.request cfg =
    min (c.tcpMss cfg) (min c.send.sendQueueBytes
      (min c.send.vmWindow c.send.congestionWindow -
        c.send.retransmission.payloadBytesInFlight)) := by
  have hcwnd : 1 ≤ c.send.congestionWindow := by
    have := h.allowance
    omega
  rw [request, available, h.notRecovering, tcpSendLimit_eq cfg c hcwnd]
  rfl

theorem Unhindered.request_pos (h : Unhindered c) (hs : c.Sending cfg) :
    0 < c.request cfg := by
  have hmss := tcpMss_pos cfg c
  have hbytes := hs.sendQueueBytes_pos h.queued
  have hroom := h.allowance
  rw [h.request_eq]
  omega

/-- What the loop does turns on the answer to its first request. -/
theorem drainLoop_answered (hs : c.Sending cfg) (hreg : c.registered = true)
    (hstate : c.state ≠ .synSent) (hqueue : c.send.sendQueue ≠ [])
    (hws : turn.bufferedAmount c.sent.length ≤ 32768)
    (hpos : 0 < c.request cfg) {answer : Bool}
    (hanswer : (c.rateLimiter.tryConsume (turn.now c.sent.length) (c.request cfg)).2 = answer)
    {fuel : Nat} (hfuel : c.send.sendQueueBytes < fuel) :
    ∃ c', drainLoop cfg turn true fuel 0 c = .ok c' ∧ (answer = true → Transmits c c') ∧
      (answer = false → c'.send.sendQueueBytes = c.send.sendQueueBytes ∧
        c'.send.rateRetries = c.send.rateRetries + 1) := by
  obtain ⟨fuel, rfl⟩ := Nat.exists_eq_succ_of_ne_zero (Nat.ne_of_gt (Nat.zero_lt_of_lt hfuel))
  have hev := isTCPCongestionRecoveryActive_evolves hs
  obtain ⟨recoveryUntil, he⟩ := isTCPCongestionRecoveryActive_eq c
  unfold drainLoop
  rw [drainStep_eq cfg turn hreg hqueue hws hpos true 0]
  rw [he] at hev ⊢
  cases answer with
  | false =>
      obtain ⟨c', hok, hbytes, hretries⟩ := @sendStep_refused cfg turn
        { c with send := { c.send with congestionRecoveryUntil := recoveryUntil } }
        0 (c.available cfg) _ hanswer
      rw [hok]
      exact ⟨c', rfl, fun ht => Bool.noConfusion ht, fun _ => ⟨hbytes, hretries⟩⟩
  | true =>
      have hasked : c.request cfg ≤ c.available cfg :=
        (Nat.min_le_right _ _).trans (Nat.min_le_right _ _)
      have hroom := available_add_inFlight_le cfg c (hpos.trans_le hasked)
      have hfly : c.send.retransmission.payloadBytesInFlight + c.request cfg ≤ c.send.vmWindow := by
        omega
      obtain ⟨c₁, goesOn, hok, hspec, hsent⟩ := @sendStep_transmits cfg turn _ hev.sending
        (hev.registered.trans hreg) (hev.not_synSent hstate) 0 (c.available cfg) _ hpos
        (Nat.min_le_left _ _)
        ((Nat.min_le_right _ _).trans (Nat.min_le_left _ _))
        hfly hanswer
      rw [hok]
      have hfirst : Transmits c c₁ :=
        hsent.widen rfl rfl ⟨[], (List.append_nil _).symm⟩ le_rfl ⟨[], (List.append_nil _).symm⟩
      cases goesOn with
      | false => exact ⟨c₁, rfl, fun _ => hfirst, fun hf => Bool.noConfusion hf⟩
      | true =>
          -- Whatever the loop does next, the first segment is out.
          obtain ⟨hmore, hwindow, hless, -⟩ := hspec
          have hev₁ := hev.trans hmore
          have hready₁ : c₁.PersistReady := fun hw => by
            simp only [wantsPersist, Bool.and_eq_true, decide_eq_true_eq] at hw
            exact absurd (hmore.vmWindow ▸ hw.1) hwindow
          obtain ⟨c', hloop, hd⟩ := drainLoop_spec turn true 1 hev₁.sending
            (hev₁.registered.trans hreg) (hev₁.not_synSent hstate) hready₁
            (hless.trans_le (Nat.le_of_lt_succ hfuel))
          obtain ⟨wires, hwires, -⟩ := ((pushed_persists cfg).drainLoop hloop).sent
          exact ⟨c', hloop, fun _ => hfirst.widen rfl rfl ⟨[], (List.append_nil _).symm⟩
            (hd.evolves.sendQueueBytes_le hev₁.sending) ⟨wires, hwires⟩, fun hf => Bool.noConfusion hf⟩

/-- `drainTCPToVM` marks the connection and switches persist mode before its
loop. -/
theorem drainTCPToVM_answered (h : Unhindered c) (hs : c.Sending cfg)
    (hws : turn.bufferedAmount (c.sent.length + c.reopened cfg) ≤ 32768) {answer : Bool}
    (hanswer : ∀ sent, (c.rateLimiter.tryConsume (turn.now sent) (c.request cfg)).2 = answer) :
    ∃ c', c.drainTCPToVM cfg turn true = .ok c' ∧ (answer = true → Transmits c c') ∧
      (answer = false → c'.send.sendQueueBytes = c.send.sendQueueBytes ∧
        c'.send.rateRetries = c.send.rateRetries + 1) := by
  have hmarked : ({ c with send := { c.send with sending := true } } : Conn).Sending cfg :=
    { hs with }
  generalize hc₀ : ({ c with send := { c.send with sending := true } } : Conn) = c₀ at hmarked
  have hreg₀ : c₀.registered = true := by rw [← hc₀]; exact h.current.1
  have hev := setPersist_evolves turn hmarked hreg₀ c₀.wantsPersist
  obtain ⟨wires, q, hq, hlen, he⟩ := setPersist_changes cfg turn hreg₀
  have hrequest : ((c₀.emit wires).withQueue q).request cfg = c.request cfg :=
    (request_congr hq wires).trans (hc₀ ▸ rfl)
  have hfree : turn.bufferedAmount ((c₀.emit wires).withQueue q).sent.length ≤ 32768 := by
    have hsent : ((c₀.emit wires).withQueue q).sent = c₀.sent ++ wires := rfl
    rw [hsent, List.length_append, hlen, ← hc₀]
    exact hws
  rw [he] at hev
  obtain ⟨c', hok, hsent, hkept⟩ := @drainLoop_answered cfg turn _ hev.sending
    (hev.registered.trans hreg₀) (hev.not_synSent (hc₀ ▸ h.past))
    (by rw [← hc₀]; exact h.queued) hfree (hrequest ▸ h.request_pos hs)
    answer (by rw [hrequest, ← hc₀]; exact hanswer _) _ (Nat.lt_succ_self _)
  refine ⟨c', ?_, fun ht => ?_, fun hf => ?_⟩
  · unfold drainTCPToVM
    rw [hc₀]
    dsimp only
    rw [he]
    exact hok
  · exact (hsent ht).widen (hc₀ ▸ rfl) (hc₀ ▸ rfl) ⟨wires, hc₀ ▸ rfl⟩ le_rfl
      ⟨[], (List.append_nil _).symm⟩
  · obtain ⟨hbytes, hretries⟩ := hkept hf
    exact ⟨hbytes.trans (hc₀ ▸ rfl), hretries.trans (hc₀ ▸ rfl)⟩

/-- With an idle limiter an unhindered connection sends if and only if some
bound on the request fits into the budget of one window. Otherwise it schedules
another retry. -/
theorem drainTCPToVM_transmits_iff (hreachable : Reachable cfg c) (h : Unhindered c)
    (hws : turn.bufferedAmount (c.sent.length + c.reopened cfg) ≤ 32768) {now : Nat}
    (hidle : LimiterIdle cfg c.rateLimiter now) (hnow : ∀ sent, now ≤ turn.now sent) :
    c.trySendToVM cfg turn = c.drainTCPToVM cfg turn true ∧
      ∃ c', c.drainTCPToVM cfg turn true = .ok c' ∧
        (Transmits c c' ↔ c.tcpMss cfg ≤ cfg.rateLimitBps ∨
          c.send.sendQueueBytes ≤ cfg.rateLimitBps ∨
          min c.send.vmWindow c.send.congestionWindow -
            c.send.retransmission.payloadBytesInFlight ≤ cfg.rateLimitBps) ∧
        (¬Transmits c c' → c'.send.rateRetries = c.send.rateRetries + 1) := by
  have hlive := hreachable.live h.current
  have hcalled : c.trySendToVM cfg turn = c.drainTCPToVM cfg turn true := by
    unfold trySendToVM
    simp only [h.current.1, hlive.stopped, h.unpaced, h.past, Bool.not_true, Bool.or_false,
      decide_false, Bool.false_eq_true, if_false]
  have hfits : c.request cfg ≤ cfg.rateLimitBps ↔ c.tcpMss cfg ≤ cfg.rateLimitBps ∨
      c.send.sendQueueBytes ≤ cfg.rateLimitBps ∨
      min c.send.vmWindow c.send.congestionWindow -
        c.send.retransmission.payloadBytesInFlight ≤ cfg.rateLimitBps := by
    rw [h.request_eq, min_le_iff, min_le_iff]
  obtain ⟨c', hok, hsent, hkept⟩ := drainTCPToVM_answered h hlive.sending hws
    (fun sent => hidle.tryConsume (hnow sent) (c.request cfg))
  refine ⟨hcalled, c', hok, ?_, ?_⟩
  · rw [← hfits]
    constructor
    · intro ht
      by_contra hover
      exact absurd (hkept (decide_eq_false hover)).1 (Nat.ne_of_lt ht.shorter)
    · exact fun hfit => hsent (decide_eq_true hfit)
  · intro hnot
    refine (hkept ?_).2
    rw [← Bool.not_eq_true]
    exact fun ht => hnot (hsent ht)

/-- Three bytes that waited for the WebSocket go out. -/
theorem drainTCPToVM_transmits_iff_flushed :
    ∃ c c' : Conn, Reachable {} c ∧ c.send.sendQueueBytes = 3 ∧
      c.drainTCPToVM {} {} true = .ok c' ∧ Transmits c c' := by
  obtain ⟨c, hrun, hp⟩ := exists_run {} exampleOutbound
    [({}, .segment { seqNum := 100, ackNum := 8, ack := true, window := 1000 }),
      ({ bufferedAmount := fun _ => 40000 }, .sourceData [1, 2, 3])]
    (fun c => decide (c.Unhindered ∧ c.rateLimiter = ({} : Settings).rateLimiter ∧
      c.send.sendQueueBytes = 3)) (by decide +kernel)
  obtain ⟨hfree, hlimiter, hbytes⟩ := of_decide_eq_true hp
  have hreach : Reachable {} c := ⟨exampleOutbound, opened_exampleOutbound, _, hrun⟩
  have hidle : LimiterIdle {} c.rateLimiter 0 := hlimiter ▸ .new {} 0
  obtain ⟨-, c', hok, hiff, -⟩ := @drainTCPToVM_transmits_iff {} {} c hreach hfree
    (Nat.zero_le _) 0 hidle (fun _ => le_rfl)
  exact ⟨c, c', hreach, hbytes, hok, hiff.mpr (.inr (.inl (by rw [hbytes]; decide)))⟩

/-- With `RATE_LIMIT_KBPS` at 1, a segment of 1025 bytes is refused by an idle
limiter. -/
theorem drainTCPToVM_starves :
    ∃ c c' : Conn, Reachable { rateLimitBps := 1 * 1024 } c ∧ c.Unhindered ∧
      LimiterIdle { rateLimitBps := 1 * 1024 } c.rateLimiter 0 ∧
      c.drainTCPToVM { rateLimitBps := 1 * 1024 } {} true = .ok c' ∧ ¬Transmits c c' ∧
      c'.send.rateRetries = c.send.rateRetries + 1 := by
  obtain ⟨c, hreach, hp⟩ := exists_outbound_run { rateLimitBps := 1 * 1024 }
    ({ rateLimitBps := 1 * 1024 } : Settings).rateLimiter
    { seqNum := 99, syn := true, window := 4000, mss := some 1460 } 7
    [({}, .segment { seqNum := 100, ackNum := 8, ack := true, window := 4000 }),
      ({}, .sourceData (List.replicate 1025 0))]
    (fun c => decide (c.Unhindered ∧
        c.rateLimiter = ({ rateLimitBps := 1 * 1024 } : Settings).rateLimiter) &&
      (c.drainTCPToVM { rateLimitBps := 1 * 1024 } {} true).toOption.any fun c' =>
        decide (c'.send.sendQueueBytes = c.send.sendQueueBytes ∧
          c'.send.rateRetries = c.send.rateRetries + 1)) (by decide +kernel)
  rw [Bool.and_eq_true] at hp
  obtain ⟨hfree, hlimiter⟩ := of_decide_eq_true hp.1
  obtain ⟨c', hok, hkept⟩ := (Option.any_eq_true _ _).mp hp.2
  obtain ⟨hbytes, hretries⟩ := of_decide_eq_true hkept
  refine ⟨c, c', hreach, hfree, hlimiter ▸ .new _ 0, ok_of_toOption hok, fun hsent => ?_, hretries⟩
  exact absurd hbytes (Nat.ne_of_lt hsent.shorter)

end Conn

end RootlessRelay
