import RootlessRelay.Tcp.Drain

/-!
# Acknowledgements from the VM

An acceptable acknowledgement moves items from outstanding to acknowledged. The
recovery point may fall behind at that moment; `noteAdvancedAck`, which runs
next, then forgets it. In between `Sending` holds of the connection without its
recovery point (`forget`).

An acknowledgement is acceptable when it covers something outstanding and
nothing beyond. All others leave the queue alone and are told apart by their
status only, so the handlers need one case for the acceptable ones and one for
the rest. The window is updated independently of that, by any segment that is
not older than the last that set it.
-/

namespace RootlessRelay

open SequenceSpace Transition SendStream

namespace Conn

variable {cfg : Settings} {turn : Turn} {c c' : Conn}

/-- The connection without its recovery point, which is the weaker state between
two updates. -/
def forget (c : Conn) : Conn :=
  { c with send := { c.send with congestionRecoveryUntil := none } }

theorem Sending.forget (h : c.Sending cfg) : c.forget.Sending cfg := { h with recovery := nofun }

theorem Sending.restore (h : c.forget.Sending cfg)
    (hrec : ∀ r, c.send.congestionRecoveryUntil = some r → c.RecoveryPoint r) : c.Sending cfg :=
  { h with recovery := hrec }

theorem Sending.withState (h : c.Sending cfg) {state : ConnState}
    (hwindow : c.send.vmWindow ≤ 65535) (hacked : c.stream.acknowledged ≠ [])
    (hsyn : state ≠ .synSent) (hclosed : state ≠ .closed) : ({ c with state }).Sending cfg :=
  { h with
    notClosed := hclosed
    window := fun _ => hwindow
    handshake := fun hs => absurd hs hsyn
    synAcked := fun _ => hacked }

/-- The number of items an acknowledgement number covers, if it is acceptable. -/
def ackedItems (c : Conn) (ackNum : Seq) : Nat :=
  distance ackNum c.send.retransmission.sndUna

/-- The acknowledgement number covers nothing or something outstanding: it is
neither stale nor beyond what was sent. -/
def Acceptable (c : Conn) (ackNum : Seq) : Prop :=
  c.ackedItems ackNum ≤ c.stream.outstanding.length

instance (c : Conn) (ackNum : Seq) : Decidable (c.Acceptable ackNum) :=
  inferInstanceAs (Decidable (_ ≤ _))

/-- What an acceptable acknowledgement does to stream, queue and counters. -/
structure Acknowledged (cfg : Settings) (c c' : Conn) (ackNum : Seq) (ackedDataBytes : Nat) :
    Prop where
  sending : c'.forget.Sending cfg
  covered : 0 < c.ackedItems ackNum ∧ c.ackedItems ackNum ≤ c.stream.outstanding.length
  stream : c'.stream = { c.stream with
    acknowledged := c.stream.acknowledged ++ c.stream.outstanding.take (c.ackedItems ackNum)
    outstanding := c.stream.outstanding.drop (c.ackedItems ackNum) }
  data : ackedDataBytes = (dataOf (c.stream.outstanding.take (c.ackedItems ackNum))).length
  recovery : ∀ r, c'.send.congestionRecoveryUntil = some r →
    ackedDataBytes = 0 ∨ ¬(ackNum = r ∨ seqLessThan r ackNum = true) → c'.RecoveryPoint r
  timer : c.send.retransmission.TimerExact → c'.send.retransmission.TimerExact
  queue : ∃ segments, c'.send.retransmission = c.send.retransmission.advanceTo ackNum segments
  rest : c' = { c with send := { c.send with
    retransmission := c'.send.retransmission, acknowledged := c'.send.acknowledged } }

theorem Acknowledged.acknowledged_ne_nil {ackNum : Seq} {ackedDataBytes : Nat}
    (h : Acknowledged cfg c c' ackNum ackedDataBytes) : c'.stream.acknowledged ≠ [] := by
  obtain ⟨hpos, hle⟩ := h.covered
  rw [h.stream]
  intro hnil
  have htake := congrArg List.length (List.append_eq_nil_iff.mp hnil).2
  rw [List.length_take_of_le hle, List.length_nil] at htake
  omega

/-- Acknowledged items are taken off the front of the history, so the point
moves closer or is passed. -/
theorem RecoveryPoint.after_ack (h : c.Sending cfg) {ackNum r : Seq} {count : Nat}
    (hack : ackNum = position c.send.relayIsn (c.stream.acknowledged.length + count))
    (hcount : count ≤ c.stream.outstanding.length) (hpoint : c.RecoveryPoint r)
    (hr : (dataOf (c.stream.outstanding.take count)).length = 0 ∨
      ¬(ackNum = r ∨ seqLessThan r ackNum = true)) :
    ∃ place, r = position c.send.relayIsn place ∧ place ≤ c.stream.history.length ∧
      c.stream.acknowledged.length + count ≤
        place + controls (c.stream.acknowledged ++ c.stream.outstanding.take count) := by
  obtain ⟨place, hplace, hle, hctl⟩ := hpoint
  refine ⟨place, hplace, hle, ?_⟩
  rw [controls_append]
  rcases hr with hdata | hbehind
  · have := dataOf_add_controls (c.stream.outstanding.take count)
    rw [hdata, List.length_take_of_le hcount] at this
    omega
  · -- The point is still ahead: otherwise it would precede the acknowledgement.
    rw [not_or, hack, hplace, seqLessThan_eq_precedes] at hbehind
    have hout := h.outstanding_le
    have hcontrols := h.controls_le
    rw [SendStream.State.history, controls_append] at hcontrols
    change c.stream.outstanding.length ≤ _ at hout
    by_contra hlt
    refine hbehind.2 ((precedes_position (w := 32) (by omega) _ ?_ ?_).mpr ?_) <;> omega

/-- The connection after `count` items were acknowledged. -/
def afterAck (c : Conn) (q : RetransmissionQueue) (count : Nat) : Conn :=
  { c with send := { c.send with
    retransmission := q
    acknowledged := c.stream.acknowledged ++ c.stream.outstanding.take count } }

theorem afterAck_history {q : RetransmissionQueue} {count : Nat}
    (hitems : q.items = c.stream.outstanding.drop count) :
    (c.afterAck q count).stream.history = c.stream.history := by
  change (c.stream.acknowledged ++ c.stream.outstanding.take count) ++ q.items = _
  rw [hitems, List.append_assoc, List.take_append_drop]
  rfl

/-- A queue whose first items have been acknowledged leaves the sending side
consistent, with the stream moved accordingly. -/
theorem Sending.afterAck (h : c.Sending cfg) {q : RetransmissionQueue} {count : Nat}
    (hclosed : q.closed = false) (hexhausted : q.exhausted = false) (hw : q.WellTracked)
    (huna : q.sndUna = position c.send.relayIsn (c.stream.acknowledged.length + count))
    (hnxt : q.sndNxt = c.send.retransmission.sndNxt) (hcount : count ≤ c.stream.outstanding.length)
    (hitems : q.items = c.stream.outstanding.drop count) :
    (c.afterAck q count).forget.Sending cfg := by
  have hhistory := afterAck_history hitems
  have hstep : SendStream.Step itemFormat c.stream (.acknowledge count)
      (c.afterAck q count).stream := by
    have hstream : (c.afterAck q count).stream = { c.stream with
        acknowledged := c.stream.acknowledged ++ c.stream.outstanding.take count
        outstanding := c.stream.outstanding.drop count } := by
      rw [← hitems]
      rfl
    rw [hstream]
    exact .acknowledge c.stream count
  exact {
    opened := hclosed
    live := hexhausted
    notClosed := h.notClosed
    tracked := hw
    acked := by
      change q.sndUna = position _ (c.stream.acknowledged ++ c.stream.outstanding.take count).length
      rw [huna, List.length_append, List.length_take_of_le hcount]
      rfl
    next := h.next.trans hnxt.symm
    queueBytes := h.queueBytes
    chunks := h.chunks
    conserved := hstep.conserved h.conserved
    synFirst := hhistory ▸ h.synFirst
    finTracked := hhistory ▸ h.finTracked
    finBudget := hhistory ▸ h.finBudget
    finOutstanding := by
      change q.items.count .fin ≤ 1
      rw [hitems]
      exact Nat.le_trans ((List.drop_sublist _ _).count_le _) h.finOutstanding
    inFlight := by
      change q.payloadBytesInFlight ≤ _
      have hall := congrArg (fun xs => (dataOf xs).length)
        (List.take_append_drop count c.stream.outstanding)
      have hold : c.send.retransmission.payloadBytesInFlight =
        (dataOf c.stream.outstanding).length := h.tracked.inFlight
      have hbound := h.inFlight
      simp only [dataOf_append, List.length_append] at hall
      rw [hw.inFlight, hitems]
      omega
    window := h.window
    handshake := fun hs => hhistory.trans (h.handshake hs)
    synAcked := fun hs hnil => h.synAcked hs (List.append_eq_nil_iff.mp hnil).1
    cwnd := h.cwnd
    recovery := nofun
    pacer := h.pacer
    paused := h.paused }

/-- Everything `acknowledge` can do to a live connection: an advance, or
nothing. -/
theorem acknowledge_spec (h : c.Sending cfg) (ackNum : Seq) :
    (∃ c' ackedDataBytes, c.acknowledge ackNum = .ok (c', ⟨.advanced, ackedDataBytes⟩) ∧
      Acknowledged cfg c c' ackNum ackedDataBytes) ∨
    ∃ q status, c.acknowledge ackNum = .ok (c.withQueue q, ⟨status, 0⟩) ∧ status ≠ .advanced ∧
      (status = .duplicate ↔ c.Acceptable ackNum) ∧
      c.send.retransmission.SameStream q ∧ q.segments = c.send.retransmission.segments ∧
      q.persist = c.send.retransmission.persist ∧
      (c.send.retransmission.TimerExact → q.TimerExact) ∧
      ¬(0 < c.ackedItems ackNum ∧ c.Acceptable ackNum) := by
  have hlen : c.stream.outstanding.length ≤ 65538 := h.outstanding_le
  have hout := h.tracked.outstanding (Nat.lt_of_le_of_lt hlen (by omega))
  by_cases hok : 0 < c.ackedItems ackNum ∧ c.ackedItems ackNum ≤ c.stream.outstanding.length
  · refine .inl ?_
    obtain ⟨hpos, hle⟩ := hok
    obtain ⟨segments, he, hitems, -, hw⟩ := RetransmissionQueue.acknowledge_advanced h.tracked
      ackNum hpos (Nat.lt_of_le_of_lt hle (by omega)) (hle.trans_eq hout.symm)
    change segmentItems segments = c.stream.outstanding.drop (c.ackedItems ackNum) at hitems
    have hdropped : c.send.retransmission.items.length -
        (c.send.retransmission.advanceTo ackNum segments).items.length = c.ackedItems ackNum := by
      rw [RetransmissionQueue.advanceTo_items, hitems, List.length_drop]
      change c.stream.outstanding.length - (c.stream.outstanding.length - _) = _
      omega
    have hitems' := (RetransmissionQueue.advanceTo_items c.send.retransmission ackNum
      segments).trans hitems
    have hresult : c.acknowledge ackNum = .ok
        (c.afterAck (c.send.retransmission.advanceTo ackNum segments) (c.ackedItems ackNum),
          ⟨.advanced, (dataOf (c.stream.outstanding.take (c.ackedItems ackNum))).length⟩) := by
      unfold acknowledge
      rw [he]
      dsimp only
      rw [hdropped]
      rfl
    have hack : ackNum = position c.send.relayIsn
        (c.stream.acknowledged.length + c.ackedItems ackNum) := by
      rw [← position_add, ← h.acked]
      exact (position_distance _ _).symm
    refine ⟨_, _, hresult, ?_, ⟨hpos, hle⟩, ?_, rfl, ?_, ?_, ⟨segments, rfl⟩, rfl⟩
    · exact h.afterAck ((RetransmissionQueue.advanceTo_closed _ _ _).trans h.opened)
        ((RetransmissionQueue.advanceTo_exhausted _ _ _).trans h.live) hw
        ((RetransmissionQueue.advanceTo_sndUna _ _ _).trans hack)
        (RetransmissionQueue.advanceTo_sndNxt _ _ _) hle hitems'
    · rw [← hitems']
      rfl
    · intro r hr hpoint
      obtain ⟨place, hplace, hreached, hctl⟩ :=
        RecoveryPoint.after_ack h hack hle (h.recovery r hr) hpoint
      refine ⟨place, hplace, hreached.trans_eq (congrArg _ (afterAck_history hitems').symm), ?_⟩
      refine Nat.le_trans (Nat.le_of_eq ?_) hctl
      change (c.stream.acknowledged ++ c.stream.outstanding.take _).length = _
      rw [List.length_append, List.length_take_of_le hle]
    · intro ht
      exact RetransmissionQueue.acknowledge_timerExact ht he
  · refine .inr ?_
    obtain ⟨q, status, he, hne, hdup, hq⟩ :=
      RetransmissionQueue.acknowledge_ignored c.send.retransmission ackNum (by
        change c.ackedItems ackNum = 0 ∨ 2 ^ 31 ≤ c.ackedItems ackNum ∨
          distance c.send.retransmission.sndNxt c.send.retransmission.sndUna < c.ackedItems ackNum
        change ¬(_ ∧ _ ≤ c.send.retransmission.items.length) at hok
        change distance _ _ = _ at hout
        omega)
    have hsame : c.send.retransmission.SameStream q ∧
        q.segments = c.send.retransmission.segments ∧
        q.persist = c.send.retransmission.persist := by
      rcases hq with rfl | ⟨-, rfl⟩ <;> exact ⟨.of_segments rfl rfl rfl rfl rfl rfl, rfl, rfl⟩
    have hacceptable : status = .duplicate ↔ c.Acceptable ackNum := by
      rw [hdup, ← distance_eq_zero]
      change c.ackedItems ackNum = 0 ↔ c.ackedItems ackNum ≤ c.stream.outstanding.length
      omega
    refine ⟨q, status, ?_, hne, hacceptable, hsame.1, hsame.2.1, hsame.2.2, fun ht => ?_, hok⟩
    · unfold acknowledge
      rw [he]
      dsimp only
      rw [hsame.1.items, Nat.sub_self, List.take_zero, List.append_nil]
      rfl
    · exact RetransmissionQueue.acknowledge_timerExact ht he

/-- The window fields and whether the advertised window changed. -/
theorem updateTCPWindow_eq (c : Conn) (sequence ack : Seq) (window : BitVec 16) :
    ∃ vmWindow windowUpdate, (c.updateTCPWindow sequence ack window.toNat).1 =
        { c with send := { c.send with vmWindow, windowUpdate } } ∧
      (vmWindow = c.send.vmWindow ∨ vmWindow ≤ 65535) ∧
      ((c.updateTCPWindow sequence ack window.toNat).2 = false → vmWindow = c.send.vmWindow) := by
  have hbound : window.toNat ≤ 65535 := Nat.le_of_lt_succ window.isLt
  unfold updateTCPWindow
  dsimp only
  split
  · exact ⟨c.send.vmWindow, c.send.windowUpdate, rfl, .inl rfl, fun _ => rfl⟩
  · exact ⟨window.toNat, some (sequence, ack), rfl, .inr hbound, fun hsame =>
      Eq.symm (by simpa using hsame)⟩

theorem Sending.withWindow (h : c.Sending cfg) {vmWindow : Nat}
    (hwindow : vmWindow = c.send.vmWindow ∨ vmWindow ≤ 65535)
    (windowUpdate : Option (Seq × Seq)) :
    ({ c with send := { c.send with vmWindow, windowUpdate } }).Sending cfg :=
  { h with window := fun hs => hwindow.elim (fun he => he ▸ h.window hs) id }

/-- `noteAdvancedAck` completes an acknowledgement: the recovery point is again
in order, and nothing but a repeated segment has been sent. -/
theorem noteAdvancedAck_spec (h : c.forget.Sending cfg) {ackedDataBytes : Nat} {ackNum : Seq}
    (hrec : ∀ r, c.send.congestionRecoveryUntil = some r →
      ackedDataBytes = 0 ∨ ¬(ackNum = r ∨ seqLessThan r ackNum = true) → c.RecoveryPoint r) :
    Evolves cfg c (c.noteAdvancedAck cfg ackedDataBytes ackNum) ∧
      (c.noteAdvancedAck cfg ackedDataBytes ackNum).send.retransmission = c.send.retransmission ∧
      (c.noteAdvancedAck cfg ackedDataBytes ackNum).send.sending = c.send.sending ∧
      (c.noteAdvancedAck cfg ackedDataBytes ackNum).state = c.state := by
  unfold noteAdvancedAck onTCPCongestionAck
  dsimp only
  split
  · rename_i hzero
    exact ⟨.of_stream { h with recovery := fun r hr => hrec r hr (.inl hzero) } rfl rfl rfl,
      rfl, rfl, rfl⟩
  · split
    · rename_i recoveryUntil hr
      split
      · exact ⟨.of_stream { h with } rfl rfl rfl, rfl, rfl, rfl⟩
      · rename_i hbehind
        have hpoint : ∀ r, c.send.congestionRecoveryUntil = some r → c.RecoveryPoint r := by
          intro r hr'
          obtain rfl : recoveryUntil = r := Option.some.inj (hr.symm.trans hr')
          exact hrec recoveryUntil hr (.inr hbehind)
        unfold retransmitTCPRecoveryHead
        split
        · exact ⟨.of_stream { h with recovery := hpoint } rfl rfl rfl, rfl, rfl, rfl⟩
        · rename_i segment _
          have hnoted : ({ c with send := { c.send with
              dupAckCount := 0
              fastRetransmitAck := some c.send.retransmission.sndUna
              vmLastAck := c.send.retransmission.sndUna } }).Sending cfg :=
            { h with recovery := hpoint }
          obtain ⟨wires, hwires⟩ := resend_eq cfg { c with send := { c.send with
            dupAckCount := 0
            fastRetransmitAck := some c.send.retransmission.sndUna
            vmLastAck := c.send.retransmission.sndUna } } segment
          rw [hwires]
          exact ⟨.of_stream (hnoted.emit wires) rfl rfl rfl, rfl, rfl, rfl⟩
    · rename_i hnone
      refine ⟨.of_stream { h with
        pacer := Pacer.noteAck_timerExact h.pacer _ _
        recovery := fun r hr => ?_
        cwnd := fun hpos => ?_ } rfl rfl rfl, rfl, rfl, rfl⟩
      · refine Nat.le_min.mpr ⟨hpos, Nat.le_trans ?_ (Nat.le_add_left _ _)⟩
        exact Nat.le_max_left _ _
      · exact absurd (hnone.symm.trans hr) nofun

theorem fastRetransmit_timerExact (turn : Turn) (h : c.send.retransmission.TimerExact) :
    (c.fastRetransmit cfg turn).send.retransmission.TimerExact :=
  RetransmissionQueue.fastRetransmit_timerExact (lawfulCallbacks cfg turn) h c

end Conn

end RootlessRelay
