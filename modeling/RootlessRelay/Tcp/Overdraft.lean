import RootlessRelay.Tcp.Sends

/-!
# When the limiter refuses

The send loop asks the limiter for one segment after another. How many segments it asks
for is settled before it begins. The queue and the send limit say how many bytes there are
to ask for, the WebSocket may be backed up at one of the segments, the pacer may stop the
sender after one, and a sender without a pacer yields to the event loop after 64. None of
this depends on the answers, except that the first refusal ends the loop.

`Outlook` gathers these data as they are when the loop begins. `ComesTo` says that nothing
but the limiter keeps the loop from asking for the segment after so many whole ones, and
`HasRoom` that the limiter has room for that segment once it has granted the ones before.
The loop ends in a refusal exactly if it comes to a segment for which there is no room.
-/

namespace RootlessRelay

/-- What settles how far a send loop comes: the bytes that the queue and the
send limit offer, and how many segments have been sent before, since the clock
and the WebSocket are read anew at every segment. -/
structure Outlook where
  mss : Nat
  mss_pos : 0 < mss
  offered : Nat
  sent : Nat
  limiter : SlidingWindowRateLimiter
  pacer : Pacer

namespace Outlook

variable (turn : Turn) (o : Outlook)

/-- The limiter once it has been asked for so many whole segments, at the times
at which the loop asks. -/
def limiterAfter : Nat → SlidingWindowRateLimiter
  | 0 => o.limiter
  | count + 1 => ((limiterAfter count).tryConsume (turn.now (o.sent + count)) o.mss).1

/-- The pacer once it has counted so many segments. -/
def pacerAfter : Nat → Pacer
  | 0 => o.pacer
  | count + 1 => ((pacerAfter count).noteSegment (turn.now (o.sent + count + 1))).1

/-- After `count` whole segments there are bytes left to ask for, and neither
the WebSocket nor the pacer nor the bound on segments in a row has ended the
loop. -/
structure ComesTo (cooperativeSegments count : Nat) : Prop where
  bytes : count * o.mss < o.offered
  transport : ∀ j ≤ count, turn.bufferedAmount (o.sent + j) ≤ 32768
  unpaced : ∀ j < count,
    ((o.pacerAfter turn j).noteSegment (turn.now (o.sent + j + 1))).2 = false
  cooperative : o.pacer.isOff = true → cooperativeSegments + count < 64

/-- The limiter grants the segment after `count` whole ones, which may be a
shorter one. -/
def HasRoom (count : Nat) : Prop :=
  ((o.limiterAfter turn count).tryConsume (turn.now (o.sent + count))
    (min o.mss (o.offered - count * o.mss))).2 = true

/-- The limiter has room for every segment the loop comes to. -/
def Granted : Prop := ∀ count, o.ComesTo turn 0 count → o.HasRoom turn count

instance (cooperativeSegments count : Nat) :
    Decidable (o.ComesTo turn cooperativeSegments count) :=
  decidable_of_iff (count * o.mss < o.offered ∧
      (∀ j ≤ count, turn.bufferedAmount (o.sent + j) ≤ 32768) ∧
      (∀ j < count, ((o.pacerAfter turn j).noteSegment (turn.now (o.sent + j + 1))).2 = false) ∧
      (o.pacer.isOff = true → cooperativeSegments + count < 64))
    ⟨fun ⟨h₁, h₂, h₃, h₄⟩ => ⟨h₁, h₂, h₃, h₄⟩, fun ⟨h₁, h₂, h₃, h₄⟩ => ⟨h₁, h₂, h₃, h₄⟩⟩

instance (count : Nat) : Decidable (o.HasRoom turn count) := inferInstanceAs (Decidable (_ = true))

/-- Every segment takes a byte at least, so there are no more of them than
bytes. -/
theorem ComesTo.lt {turn : Turn} {o : Outlook} {cooperativeSegments count : Nat}
    (h : o.ComesTo turn cooperativeSegments count) : count < o.offered :=
  (Nat.le_mul_of_pos_right count o.mss_pos).trans_lt h.bytes

instance : Decidable (o.Granted turn) :=
  decidable_of_iff (∀ count < o.offered, o.ComesTo turn 0 count → o.HasRoom turn count)
    ⟨fun h count hcomes => h count hcomes.lt hcomes, fun h count _ => h count⟩

/-- The outlook after one whole segment that was granted. -/
def next : Outlook where
  mss := o.mss
  mss_pos := o.mss_pos
  offered := o.offered - o.mss
  sent := o.sent + 1
  limiter := (o.limiter.tryConsume (turn.now o.sent) o.mss).1
  pacer := (o.pacer.noteSegment (turn.now (o.sent + 1))).1

variable {turn : Turn} {o : Outlook} {cooperativeSegments count : Nat}

theorem limiterAfter_next (turn : Turn) (o : Outlook) (count : Nat) :
    (o.next turn).limiterAfter turn count = o.limiterAfter turn (count + 1) := by
  induction count with
  | zero => rfl
  | succ count ih =>
      have hsent : (o.next turn).sent + count = o.sent + (count + 1) := Nat.add_right_comm _ 1 _
      rw [limiterAfter, ih, hsent]
      rfl

theorem pacerAfter_next (turn : Turn) (o : Outlook) (count : Nat) :
    (o.next turn).pacerAfter turn count = o.pacerAfter turn (count + 1) := by
  induction count with
  | zero => rfl
  | succ count ih =>
      have hsent : (o.next turn).sent + count + 1 = o.sent + (count + 1) + 1 :=
        congrArg (· + 1) (Nat.add_right_comm _ 1 _)
      rw [pacerAfter, ih, hsent]
      rfl

theorem isOff_noteSegment (p : Pacer) (now : Nat) : (p.noteSegment now).1.isOff = p.isOff := by
  unfold Pacer.noteSegment
  split
  · rfl
  split
  · rfl
  dsimp only
  split <;> rfl

theorem hasRoom_next : (o.next turn).HasRoom turn count ↔ o.HasRoom turn (count + 1) := by
  have hsent : (o.next turn).sent + count = o.sent + (count + 1) := Nat.add_right_comm _ 1 _
  have hbytes : (o.next turn).offered - count * o.mss = o.offered - (count + 1) * o.mss := by
    rw [Nat.succ_mul, Nat.add_comm, ← Nat.sub_sub]
    rfl
  unfold HasRoom
  rw [limiterAfter_next, hsent]
  change (SlidingWindowRateLimiter.tryConsume _ _
    (min o.mss ((o.next turn).offered - count * o.mss))).2 = true ↔ _
  rw [hbytes]

theorem comesTo_zero (hcoop : o.pacer.isOff = true → cooperativeSegments < 64) :
    o.ComesTo turn cooperativeSegments 0 ↔
      turn.bufferedAmount o.sent ≤ 32768 ∧ 0 < o.offered := by
  constructor
  · intro h
    exact ⟨h.transport 0 le_rfl, by simpa using h.bytes⟩
  · rintro ⟨htransport, hbytes⟩
    refine ⟨by simpa using hbytes, fun j hj => ?_, fun j hj => absurd hj (Nat.not_lt_zero j), hcoop⟩
    rwa [Nat.le_zero.mp hj]

/-- The loop goes on after a whole segment if bytes are left and nothing stops
it. -/
structure GoesOn (turn : Turn) (o : Outlook) (cooperativeSegments : Nat) : Prop where
  bytes : o.mss < o.offered
  unpaced : (o.pacer.noteSegment (turn.now (o.sent + 1))).2 = false
  cooperative : o.pacer.isOff = true → cooperativeSegments + 1 < 64

/-- The loop comes to a later segment if it goes on after the first one and
comes to it from there. This is the induction step of the loop. -/
theorem comesTo_succ (htransport : turn.bufferedAmount o.sent ≤ 32768) :
    o.ComesTo turn cooperativeSegments (count + 1) ↔
      o.GoesOn turn cooperativeSegments ∧
        (o.next turn).ComesTo turn (cooperativeSegments + 1) count := by
  have hsent : ∀ j, (o.next turn).sent + j = o.sent + (j + 1) := fun j =>
    Nat.add_right_comm _ 1 _
  have hoff : (o.next turn).pacer.isOff = o.pacer.isOff := isOff_noteSegment _ _
  constructor
  · intro h
    have hbytes : o.mss + count * o.mss < o.offered := by
      rw [Nat.add_comm, ← Nat.succ_mul]
      exact h.bytes
    refine ⟨⟨by omega, h.unpaced 0 (Nat.zero_lt_succ _), fun hp => ?_⟩, ⟨?_, ?_, ?_, ?_⟩⟩
    · have := h.cooperative hp
      omega
    · change count * o.mss < o.offered - o.mss
      omega
    · intro j hj
      rw [hsent]
      exact h.transport (j + 1) (Nat.succ_le_succ hj)
    · intro j hj
      rw [pacerAfter_next, hsent]
      exact h.unpaced (j + 1) (Nat.succ_lt_succ hj)
    · intro hp
      have := h.cooperative (hoff ▸ hp)
      omega
  · rintro ⟨hfirst, h⟩
    have hbytes : count * o.mss < o.offered - o.mss := h.bytes
    refine ⟨?_, ?_, ?_, ?_⟩
    · rw [Nat.succ_mul]
      omega
    · intro j hj
      cases j with
      | zero => exact htransport
      | succ j =>
          rw [← hsent]
          exact h.transport j (Nat.le_of_succ_le_succ hj)
    · intro j hj
      cases j with
      | zero => exact hfirst.unpaced
      | succ j =>
          have hstep := h.unpaced j (Nat.lt_of_succ_lt_succ hj)
          rwa [pacerAfter_next, hsent] at hstep
    · intro hp
      have := h.cooperative (hoff.trans hp)
      omega

end Outlook

namespace Conn

variable {cfg : Settings} {turn : Turn} {c c' : Conn} {fuel cooperativeSegments : Nat}

/-- The outlook at the head of the loop. -/
def outlook (cfg : Settings) (c : Conn) : Outlook where
  mss := c.tcpMss cfg
  mss_pos := tcpMss_pos cfg c
  offered := min c.send.sendQueueBytes (c.available cfg)
  sent := c.sent.length
  limiter := c.rateLimiter
  pacer := c.send.pacer

/-- The outlook of a loop that has not begun yet. The segments that leaving
persist mode repeats come first. -/
def sendOutlook (cfg : Settings) (c : Conn) : Outlook :=
  { c.outlook cfg with sent := c.sent.length + c.reopened cfg }

/-- Taking bytes off the queue takes them off what is offered. -/
theorem takeBytes_outlook (h : c.Sending cfg) {toSend : Nat} (hle : toSend ≤ c.send.sendQueueBytes)
    (left : List Bytes) (flags : Flags) :
    (c.takeBytes cfg left toSend flags).outlook cfg = { c.outlook cfg with
      offered := (c.outlook cfg).offered - toSend, sent := c.sent.length + 1 } := by
  have hlen : (c.send.sendQueue.flatten.take toSend).length = toSend :=
    List.length_take_of_le (h.queueBytes ▸ hle)
  have hfly : (c.takeBytes cfg left toSend flags).send.retransmission.payloadBytesInFlight =
      c.send.retransmission.payloadBytesInFlight + toSend := by
    have htracked := @RetransmissionQueue.tracked_payloadBytesInFlight c.send.retransmission
      { seq := c.send.relaySeq, payload := c.send.sendQueue.flatten.take toSend, flags }
    exact htracked.trans (congrArg _ hlen)
  have hrecovery : (c.takeBytes cfg left toSend flags).recoveryActive = c.recoveryActive := by
    have huna : (c.takeBytes cfg left toSend flags).send.retransmission.sndUna =
        c.send.retransmission.sndUna := RetransmissionQueue.tracked_sndUna
    unfold recoveryActive
    rw [huna]
    rfl
  have havailable : (c.takeBytes cfg left toSend flags).available cfg =
      c.available cfg - toSend := by
    unfold available
    rw [hrecovery, hfly]
    split
    · exact (Nat.zero_sub _).symm
    · exact (Nat.sub_sub _ _ _).symm
  have hbytes : (c.takeBytes cfg left toSend flags).send.sendQueueBytes =
      c.send.sendQueueBytes - toSend := rfl
  have hsent : (c.takeBytes cfg left toSend flags).sent.length = c.sent.length + 1 :=
    List.length_append
  have hoffered : min (c.send.sendQueueBytes - toSend) (c.available cfg - toSend) =
      min c.send.sendQueueBytes (c.available cfg) - toSend := by omega
  unfold outlook
  rw [havailable, hbytes, hsent, hoffered]
  rfl

/-- Forgetting a recovery point that is reached makes nothing available. -/
theorem isTCPCongestionRecoveryActive_available (cfg : Settings) (c : Conn) :
    c.isTCPCongestionRecoveryActive.1.available cfg = c.available cfg := by
  unfold isTCPCongestionRecoveryActive
  split
  · rfl
  · rename_i hidle
    unfold available
    rw [if_neg hidle]
    rfl

theorem isTCPCongestionRecoveryActive_outlook (cfg : Settings) (c : Conn) :
    c.isTCPCongestionRecoveryActive.1.outlook cfg = c.outlook cfg := by
  have havailable := isTCPCongestionRecoveryActive_available cfg c
  obtain ⟨recoveryUntil, he⟩ := isTCPCongestionRecoveryActive_eq c
  unfold outlook
  rw [havailable, he]
  rfl

/-- Why an iteration that sends a segment is the last one, or that it is not. -/
theorem sendStep_goesOn {rateLimiter : SlidingWindowRateLimiter} {available toSend : Nat}
    {taken : Conn} {goesOn : Bool}
    (hasked : c.rateLimiter.tryConsume (turn.now c.sent.length) toSend = (rateLimiter, true))
    (hsend : ({ c with rateLimiter } : Conn).sendQueued cfg toSend = .ok taken)
    (hok : c.sendStep cfg turn true cooperativeSegments available toSend = .ok (c', goesOn)) :
    (goesOn = true ↔ (taken.notePacedTCPSegment turn).2 = false ∧
      ¬(taken.send.sendQueue = [] ∨ available ≤ toSend) ∧
      (taken.send.pacer.isOff = true → cooperativeSegments + 1 < 64)) ∧
    (goesOn = true → c' = (taken.notePacedTCPSegment turn).1) := by
  have hoff : (taken.notePacedTCPSegment turn).1.send.pacer.isOff = taken.send.pacer.isOff :=
    Outlook.isOff_noteSegment _ _
  have hqueue : (taken.notePacedTCPSegment turn).1.send.sendQueue = taken.send.sendQueue := rfl
  unfold sendStep tryConsume at hok
  simp only [if_true, hasked, Bool.not_true, Bool.false_eq_true, if_false, hsend, hoff,
    hqueue] at hok
  by_cases hblocked : (taken.notePacedTCPSegment turn).2 = true
  · rw [if_pos hblocked] at hok
    cases hok
    exact ⟨iff_of_false nofun fun h => Bool.noConfusion (hblocked.symm.trans h.1), nofun⟩
  rw [if_neg hblocked] at hok
  by_cases hlast : taken.send.sendQueue = [] ∨ available ≤ toSend
  · rw [if_pos hlast] at hok
    generalize (taken.notePacedTCPSegment turn).1.stopSending.maybeFin cfg = outcome at hok
    cases outcome with
    | error thrown => cases hok
    | ok ended =>
        cases hok
        exact ⟨iff_of_false nofun fun h => h.2.1 hlast, nofun⟩
  rw [if_neg hlast] at hok
  by_cases hyields : (taken.send.pacer.isOff && decide (cooperativeSegments + 1 ≥ 64)) = true
  · rw [if_pos hyields] at hok
    cases hok
    rw [Bool.and_eq_true, decide_eq_true_eq] at hyields
    exact ⟨iff_of_false nofun fun h => Nat.not_lt.mpr hyields.2 (h.2.2 hyields.1), nofun⟩
  · rw [if_neg hyields] at hok
    cases hok
    refine ⟨iff_of_true rfl ⟨Bool.eq_false_iff.mpr hblocked, hlast, fun hp => ?_⟩, fun _ => rfl⟩
    rw [hp, Bool.true_and, decide_eq_true_eq] at hyields
    exact Nat.not_le.mp hyields

/-- A granted iteration goes on as the outlook says, and leaves the next one. -/
theorem sendStep_outlook (h : c.Sending cfg) {goesOn : Bool}
    (hoffered : 0 < (c.outlook cfg).offered) (hgranted : (c.outlook cfg).HasRoom turn 0)
    (hok : c.sendStep cfg turn true cooperativeSegments (c.available cfg) (c.request cfg) =
      .ok (c', goesOn)) :
    (goesOn = true ↔ (c.outlook cfg).GoesOn turn cooperativeSegments) ∧
      (goesOn = true → c'.outlook cfg = (c.outlook cfg).next turn ∧ c'.send.sendQueue ≠ []) := by
  have hmss := tcpMss_pos cfg c
  have hrequest : c.request cfg = min (c.tcpMss cfg) (c.outlook cfg).offered := rfl
  have hoffer : (c.outlook cfg).offered = min c.send.sendQueueBytes (c.available cfg) := rfl
  have hadmitted :
      (c.rateLimiter.tryConsume (turn.now c.sent.length) (c.request cfg)).2 = true := by
    unfold Outlook.HasRoom at hgranted
    rwa [Nat.zero_mul, Nat.sub_zero] at hgranted
  generalize c.request cfg = toSend at hok hrequest hadmitted
  generalize hasked : c.rateLimiter.tryConsume (turn.now c.sent.length) toSend = admission
    at hadmitted
  obtain ⟨rateLimiter, admitted⟩ := admission
  obtain rfl : admitted = true := hadmitted
  have hlent : ({ c with rateLimiter } : Conn).Sending cfg := { h with }
  have hle : toSend ≤ c.send.sendQueueBytes := by omega
  obtain ⟨left, hflat, hne, -, hsend⟩ := @sendQueued_eq _ _ hlent toSend (by omega)
    (hrequest ▸ Nat.min_le_left _ _) hle
  have hleft : left = [] ↔ c.send.sendQueueBytes ≤ toSend := by
    have hlen : left.flatten.length = c.send.sendQueueBytes - toSend := by
      rw [hflat, h.queueBytes]
      exact List.length_drop
    constructor
    · intro hnil
      rw [hnil, List.flatten_nil, List.length_nil] at hlen
      omega
    · intro hle
      exact eq_nil_of_flatten_eq_nil hne (List.eq_nil_of_length_eq_zero (by omega))
  have hout := @takeBytes_outlook cfg _ hlent toSend hle left { ack := true, psh := true }
  obtain ⟨hgoes, hc'⟩ := sendStep_goesOn hasked hsend hok
  generalize htaken : ({ c with rateLimiter } : Conn).takeBytes cfg left toSend
    { ack := true, psh := true } = taken at hout hgoes hc'
  have hqueue : taken.send.sendQueue = left := by
    rw [← htaken]
    rfl
  have hpacer : taken.send.pacer = c.send.pacer := congrArg Outlook.pacer hout
  have hsent : taken.sent.length = c.sent.length + 1 := congrArg Outlook.sent hout
  have hpaced : taken.send.pacer.noteSegment (turn.now taken.sent.length) =
      c.send.pacer.noteSegment (turn.now (c.sent.length + 1)) := by rw [hpacer, hsent]
  have hmore : ¬(taken.send.sendQueue = [] ∨ c.available cfg ≤ toSend) ↔
      c.tcpMss cfg < (c.outlook cfg).offered := by
    rw [hqueue, hleft]
    omega
  refine ⟨?_, fun hon => ?_⟩
  · have hblocked : (taken.notePacedTCPSegment turn).2 =
        (c.send.pacer.noteSegment (turn.now (c.sent.length + 1))).2 := congrArg Prod.snd hpaced
    rw [hgoes, hmore, hpacer, hblocked]
    exact ⟨fun ⟨h₁, h₂, h₃⟩ => ⟨h₂, h₁, h₃⟩, fun ⟨h₁, h₂, h₃⟩ => ⟨h₂, h₁, h₃⟩⟩
  · obtain ⟨-, hlast, -⟩ := hgoes.mp hon
    have hwhole : toSend = c.tcpMss cfg := by
      have := hmore.mp hlast
      omega
    rw [hc' hon]
    refine ⟨?_, fun hnil => hlast (.inl hnil)⟩
    have hnext : (taken.notePacedTCPSegment turn).1.outlook cfg = { taken.outlook cfg with
        pacer := (taken.send.pacer.noteSegment (turn.now taken.sent.length)).1 } := rfl
    have hlimiter : (c.outlook cfg).limiter.tryConsume (turn.now (c.outlook cfg).sent)
        (c.outlook cfg).mss = (rateLimiter, true) := by
      rw [hwhole] at hasked
      exact hasked
    rw [hnext, hpaced, hout, Outlook.next, hlimiter, hwhole]
    rfl

/-- An iteration that does not come to the limiter is the last one. -/
theorem drainStep_idle (hreg : c.registered = true) (hqueue : c.send.sendQueue ≠ [])
    {rateLimited goesOn : Bool}
    (hidle : 32768 < turn.bufferedAmount c.sent.length ∨ c.request cfg = 0)
    (hok : c.drainStep cfg turn rateLimited cooperativeSegments = .ok (c', goesOn)) :
    goesOn = false := by
  unfold drainStep at hok
  rw [if_neg (by simp [hreg]), if_neg hqueue] at hok
  by_cases hws : turn.bufferedAmount c.sent.length > 32768
  · rw [if_pos hws] at hok
    cases hok
    rfl
  · have hzero : min (c.isTCPCongestionRecoveryActive.1.tcpMss cfg)
        (min c.isTCPCongestionRecoveryActive.1.send.sendQueueBytes
          (if c.isTCPCongestionRecoveryActive.2 = true then 0 else
            c.tcpSendLimit cfg - c.send.retransmission.payloadBytesInFlight)) = 0 := by
      obtain ⟨recoveryUntil, he⟩ := isTCPCongestionRecoveryActive_eq c
      rw [he, isTCPCongestionRecoveryActive_snd]
      exact hidle.resolve_left hws
    rw [if_neg hws] at hok
    dsimp only at hok
    rw [if_pos hzero] at hok
    cases hok
    rfl

/-- The outlook says what an iteration does: whether it comes to the limiter,
whether the limiter refuses, and whether another iteration follows. -/
theorem drainStep_outlook (h : c.Sending cfg) (hreg : c.registered = true)
    (hqueue : c.send.sendQueue ≠ []) {goesOn : Bool}
    (hok : c.drainStep cfg turn true cooperativeSegments = .ok (c', goesOn)) :
    (c.stepRefused cfg turn true = true ↔ (turn.bufferedAmount c.sent.length ≤ 32768 ∧
        0 < (c.outlook cfg).offered) ∧ ¬(c.outlook cfg).HasRoom turn 0) ∧
      (goesOn = true ↔ (turn.bufferedAmount c.sent.length ≤ 32768 ∧
        0 < (c.outlook cfg).offered) ∧ (c.outlook cfg).HasRoom turn 0 ∧
          (c.outlook cfg).GoesOn turn cooperativeSegments) ∧
      (goesOn = true → c'.outlook cfg = (c.outlook cfg).next turn ∧ c'.send.sendQueue ≠ []) := by
  have hmss := tcpMss_pos cfg c
  have hrequest : c.request cfg = min (c.tcpMss cfg) (c.outlook cfg).offered := rfl
  have hasks : 0 < c.request cfg ↔ 0 < (c.outlook cfg).offered := by omega
  have hanswer : (c.rateLimiter.tryConsume (turn.now c.sent.length) (c.request cfg)).2 = true ↔
      (c.outlook cfg).HasRoom turn 0 := by
    unfold Outlook.HasRoom
    rw [Nat.zero_mul, Nat.sub_zero]
    rfl
  have hrefused : c.stepRefused cfg turn true = true ↔ (turn.bufferedAmount c.sent.length ≤ 32768 ∧
      0 < (c.outlook cfg).offered) ∧ ¬(c.outlook cfg).HasRoom turn 0 := by
    rw [← hanswer, ← hasks]
    simp [stepRefused, limiterRefuses, hreg, hqueue, and_assoc]
  refine ⟨hrefused, ?_⟩
  by_cases hcomes : turn.bufferedAmount c.sent.length ≤ 32768 ∧ 0 < (c.outlook cfg).offered
  swap
  · rw [drainStep_idle hreg hqueue (by omega) hok]
    exact ⟨iff_of_false Bool.false_ne_true fun h => hcomes h.1,
      fun hgoes => absurd hgoes Bool.false_ne_true⟩
  by_cases hroom : (c.outlook cfg).HasRoom turn 0
  swap
  · rw [drainStep_refused (hrefused.mpr ⟨hcomes, hroom⟩) hok]
    exact ⟨iff_of_false Bool.false_ne_true fun h => hroom h.2.1,
      fun hgoes => absurd hgoes Bool.false_ne_true⟩
  rw [drainStep_eq cfg turn hreg hqueue hcomes.1 (hasks.mpr hcomes.2)] at hok
  have hsame := isTCPCongestionRecoveryActive_outlook cfg c
  have hev := isTCPCongestionRecoveryActive_evolves h
  have hrequested : c.isTCPCongestionRecoveryActive.1.request cfg = c.request cfg :=
    congrArg (fun o => min o.mss o.offered) hsame
  rw [← isTCPCongestionRecoveryActive_available, ← hrequested] at hok
  obtain ⟨hgoes, hnext⟩ := sendStep_outlook hev.sending (hsame ▸ hcomes.2) (hsame ▸ hroom) hok
  rw [hsame] at hgoes hnext
  exact ⟨hgoes.trans ⟨fun hon => ⟨hcomes, hroom, hon⟩, fun hall => hall.2.2⟩, hnext⟩

/-- The loop ends in a refusal exactly if it comes to a segment the limiter has
no room for. The induction follows the iterations, each of which leaves the next
outlook. -/
theorem loopRefused_iff (h : c.Sending cfg) (hreg : c.registered = true)
    (hstate : c.state ≠ .synSent) (hready : c.PersistReady) (hqueue : c.send.sendQueue ≠ [])
    (hcoop : c.send.pacer.isOff = true → cooperativeSegments < 64)
    (hfuel : c.send.sendQueueBytes < fuel) :
    loopRefused cfg turn true fuel cooperativeSegments c = true ↔
      ∃ count, (c.outlook cfg).ComesTo turn cooperativeSegments count ∧
        ¬(c.outlook cfg).HasRoom turn count := by
  induction fuel generalizing c cooperativeSegments with
  | zero => cases hfuel
  | succ fuel ih =>
      obtain ⟨⟨c₁, goesOn⟩, hok, hspec⟩ :=
        drainStep_spec turn true cooperativeSegments h hreg hstate hready
      obtain ⟨hrefused, hgoes, hnext⟩ := drainStep_outlook h hreg hqueue hok
      have hfirst := @Outlook.comesTo_zero turn (c.outlook cfg) cooperativeSegments hcoop
      change _ ↔ turn.bufferedAmount c.sent.length ≤ 32768 ∧ 0 < (c.outlook cfg).offered at hfirst
      rw [← hfirst] at hrefused hgoes
      unfold loopRefused
      rw [hok, Bool.or_eq_true, hrefused]
      cases goesOn with
      | false =>
          refine ⟨fun hnow => ⟨0, hnow.resolve_right Bool.false_ne_true⟩, ?_⟩
          rintro ⟨count, hcomes, hno⟩
          left
          cases count with
          | zero => exact ⟨hcomes, hno⟩
          | succ count =>
              obtain ⟨hon, -⟩ := (Outlook.comesTo_succ (hcomes.transport 0 (Nat.zero_le _))).mp hcomes
              have hstarts := hfirst.mpr
                ⟨hcomes.transport 0 (Nat.zero_le _), (Nat.zero_le _).trans_lt hon.bytes⟩
              exact ⟨hstarts, fun hroom => Bool.noConfusion (hgoes.mpr ⟨hstarts, hroom, hon⟩)⟩
      | true =>
          obtain ⟨hstarts, hroom, hon⟩ := hgoes.mp rfl
          obtain ⟨hout, hqueue₁⟩ := hnext rfl
          obtain ⟨hev, hwindow, hless, -⟩ := hspec
          have hready₁ : c₁.PersistReady := fun hw => by
            simp only [wantsPersist, Bool.and_eq_true, decide_eq_true_eq] at hw
            exact absurd (hev.vmWindow ▸ hw.1) hwindow
          have hoff : c₁.send.pacer.isOff = c.send.pacer.isOff :=
            (congrArg (fun o => o.pacer.isOff) hout).trans (Outlook.isOff_noteSegment _ _)
          have hcoop₁ : c₁.send.pacer.isOff = true → cooperativeSegments + 1 < 64 := fun hp =>
            hon.cooperative (hoff.symm.trans hp)
          have hlater := ih hev.sending (hev.registered.trans hreg) (hev.not_synSent hstate)
            hready₁ hqueue₁ hcoop₁ (by omega)
          have hbefore := fun count => @Outlook.comesTo_succ turn (c.outlook cfg)
            cooperativeSegments count (hstarts.transport 0 le_rfl)
          rw [hout] at hlater
          refine ⟨fun hlate => ?_, ?_⟩
          · obtain ⟨count, hcomes, hno⟩ := hlater.mp (hlate.resolve_left fun hnow => hnow.2 hroom)
            exact ⟨count + 1, (hbefore count).mpr ⟨hon, hcomes⟩, fun h => hno
              (Outlook.hasRoom_next.mpr h)⟩
          rintro ⟨count, hcomes, hno⟩
          right
          cases count with
          | zero => exact absurd hroom hno
          | succ count =>
              exact hlater.mpr ⟨count, ((hbefore count).mp hcomes).2, fun h => hno
                (Outlook.hasRoom_next.mp h)⟩

/-- With nothing queued the loop asks for nothing, so it is not refused. -/
theorem loopRefused_empty (hqueue : c.send.sendQueue = []) (rateLimited : Bool) :
    loopRefused cfg turn rateLimited fuel cooperativeSegments c = false := by
  cases fuel with
  | zero => rfl
  | succ fuel =>
      have hstep : c.stepRefused cfg turn rateLimited = false := by simp [stepRefused, hqueue]
      unfold loopRefused
      rw [hstep, Bool.false_or]
      split
      · rename_i c₁ hok
        unfold drainStep at hok
        by_cases hreg : c.registered = true
        · rw [if_neg (by simp [hreg]), if_pos hqueue] at hok
          generalize c.stopSending.maybeFin cfg = outcome at hok
          cases outcome <;> cases hok
        · rw [if_pos (by simp [hreg])] at hok
          cases hok
      · rfl

/-- `trySendToVM` runs the loop with something in the queue. -/
structure EntersLoop (c : Conn) : Prop where
  registered : c.registered = true
  stopped : c.send.sending = false
  unpaced : c.send.pacer.blocked = false
  past : c.state ≠ .synSent
  queued : c.send.sendQueue ≠ []

instance (c : Conn) : Decidable c.EntersLoop :=
  decidable_of_iff (c.registered = true ∧ c.send.sending = false ∧
      c.send.pacer.blocked = false ∧ c.state ≠ .synSent ∧ c.send.sendQueue ≠ [])
    ⟨fun ⟨h₁, h₂, h₃, h₄, h₅⟩ => ⟨h₁, h₂, h₃, h₄, h₅⟩,
      fun ⟨h₁, h₂, h₃, h₄, h₅⟩ => ⟨h₁, h₂, h₃, h₄, h₅⟩⟩

/-- What comes before the loop changes the outlook only by the segments it
repeats. -/
theorem outlook_congr (cfg : Settings) {q : RetransmissionQueue}
    (hq : c.send.retransmission.SameStream q) {wires : List WireSegment}
    (hlen : wires.length = c.reopened cfg) :
    ((c.emit wires).withQueue q).outlook cfg = c.sendOutlook cfg := by
  have havailable := @available_congr cfg c q hq wires
  have hsent : ((c.emit wires).withQueue q).sent.length = c.sent.length + c.reopened cfg :=
    List.length_append.trans (congrArg _ hlen)
  unfold outlook sendOutlook outlook
  rw [havailable, hsent]
  rfl

/-- The limiter refuses in a call of `trySendToVM` exactly if the call enters
the loop and the loop comes to a segment the limiter has no room for. -/
theorem sendRefused_iff (cfg : Settings) (turn : Turn) (h : c.send.sendQueue ≠ [] → c.Sending cfg) :
    c.sendRefused cfg turn = true ↔ c.EntersLoop ∧ ¬(c.sendOutlook cfg).Granted turn := by
  unfold sendRefused
  rw [Bool.and_eq_true, Bool.not_eq_true']
  simp only [Bool.or_eq_false_iff, Bool.not_eq_false', decide_eq_false_iff_not]
  by_cases hreg : c.registered = true
  swap
  · exact iff_of_false (fun hruns => hreg hruns.1.1.1.1) fun hruns => hreg hruns.1.registered
  generalize hmark : ({ c with send := { c.send with sending := true } } : Conn) = c₀
  have hreg₀ : c₀.registered = true := hmark ▸ hreg
  obtain ⟨wires, q, hq, hlen, he⟩ := setPersist_changes cfg turn hreg₀
  have hqueue : ((c₀.emit wires).withQueue q).send.sendQueue = c.send.sendQueue := hmark ▸ rfl
  have hdrain : c.drainRefused cfg turn true = loopRefused cfg turn true
      (((c₀.emit wires).withQueue q).send.sendQueueBytes + 1) 0 ((c₀.emit wires).withQueue q) := by
    rw [drainRefused, hmark, ← he]
  rw [hdrain]
  by_cases hempty : c.send.sendQueue = []
  · rw [loopRefused_empty (hqueue.trans hempty)]
    exact iff_of_false (fun hruns => Bool.noConfusion hruns.2) fun hruns => hruns.1.queued hempty
  by_cases hpast : c.state = .synSent
  · exact iff_of_false (fun hruns => hruns.1.2 hpast) fun hruns => hruns.1.past hpast
  have hmarked : c₀.Sending cfg := hmark ▸ { h hempty with }
  have hev := setPersist_evolves turn hmarked hreg₀ c₀.wantsPersist
  obtain ⟨hready, -⟩ := setPersist_wanted turn hmarked hreg₀
  rw [he] at hev hready
  have hloop := @loopRefused_iff cfg turn _ _ 0 hev.sending (hev.registered.trans hreg₀)
    (hev.not_synSent (hmark ▸ hpast)) hready (hqueue ▸ hempty) (fun _ => by decide)
    (Nat.lt_succ_self _)
  have hout : ((c₀.emit wires).withQueue q).outlook cfg = c.sendOutlook cfg :=
    (outlook_congr cfg hq hlen).trans (hmark ▸ rfl)
  rw [hloop, hout]
  unfold Outlook.Granted
  simp only [not_forall, exists_prop]
  exact ⟨fun ⟨⟨⟨⟨_, h₂⟩, h₃⟩, h₄⟩, hno⟩ => ⟨⟨hreg, h₂, h₃, h₄, hempty⟩, hno⟩,
    fun ⟨h, hno⟩ => ⟨⟨⟨⟨hreg, h.stopped⟩, h.unpaced⟩, h.past⟩, hno⟩⟩

end Conn

end RootlessRelay
