import RootlessRelay.Tcp.ReceiveGuarantees

/-!
# What the sending side emits

The send loop, retransmissions and congestion control emit only segments that
occupy sequence space: payload, a SYN or a FIN. So the segments that occupy none
are the acknowledgements of the receiving side. The send loop moreover leaves
the bookkeeping of duplicate acknowledgements alone.

`Persists` is the rule for such facts: what holds across a segment of data,
across the FIN and across the loop's own bookkeeping holds across the loop. It
spares each of them the loop's case analysis and its induction, and nothing is
asked of the connection beyond what the loop itself checks.
-/

namespace RootlessRelay

namespace WireSegment

/-- The segment occupies sequence space: it has payload, a SYN or a FIN. -/
def Sequenced (wire : WireSegment) : Prop := 0 < sequenceLength wire.payload wire.flags

instance (wire : WireSegment) : Decidable wire.Sequenced := inferInstanceAs (Decidable (_ < _))

theorem sequenced_of_payload {wire : WireSegment} (h : wire.payload ≠ []) : wire.Sequenced := by
  have := List.length_pos_iff.mpr h
  simp only [Sequenced, sequenceLength]
  omega

end WireSegment

namespace Conn

variable {cfg : Settings} {turn : Turn} {c c' c'' : Conn}

/-- Only segments that occupy sequence space are sent, and none of what was sent
is taken back. -/
def Sequences (c c' : Conn) : Prop :=
  ∃ wires, c'.sent = c.sent ++ wires ∧ ∀ wire ∈ wires, wire.Sequenced

namespace Sequences

theorem of_sent (h : c'.sent = c.sent) : Sequences c c' := ⟨[], by rw [h, List.append_nil], by simp⟩

theorem refl (c : Conn) : Sequences c c := of_sent rfl

theorem trans (h : Sequences c c') (h' : Sequences c' c'') : Sequences c c'' := by
  obtain ⟨wires, hsent, hall⟩ := h
  obtain ⟨wires', hsent', hall'⟩ := h'
  refine ⟨wires ++ wires', by rw [hsent', hsent, List.append_assoc], fun wire hmem => ?_⟩
  exact (List.mem_append.mp hmem).elim (hall wire) (hall' wire)

theorem single {wire : WireSegment} (hsent : c'.sent = c.sent ++ [wire]) (hwire : wire.Sequenced) :
    Sequences c c' := ⟨[wire], hsent, by simpa using hwire⟩

end Sequences

/-- Every chunk of a payload occupies sequence space, and so does a segment with
a FIN or the first segment with a SYN. -/
theorem sendTCPLoop_sequences (cfg : Settings) {mss : Nat} (hmss : 0 < mss) (flags : Flags)
    (advance : Bool) (fuel : Nat) (c : Conn) (sequence : Seq) (isFirst : Bool) (rest : Bytes)
    (segments : List SentSegment)
    (hrest : rest ≠ [] ∨ flags.fin = true ∨ flags.syn = true ∧ isFirst = true) :
    Sequences c (sendTCPLoop cfg mss flags advance fuel c sequence isFirst rest segments).1 := by
  induction fuel generalizing c sequence isFirst rest segments with
  | zero => exact .refl c
  | succ fuel ih =>
      have hone : ∀ segmentFlags : Flags,
          (rest = [] → segmentFlags.fin = flags.fin ∧ segmentFlags.syn = (flags.syn && isFirst)) →
          Sequences c (c.sendChunk cfg sequence (rest.take mss) segmentFlags advance).1 := by
        intro segmentFlags hflags
        refine .single rfl ?_
        by_cases hnil : rest = []
        · obtain ⟨hfin, hsyn⟩ := hflags hnil
          rcases hrest with hne | hf | ⟨hs, hfirst⟩
          · exact absurd hnil hne
          · simp [WireSegment.Sequenced, sequenceLength, hnil, hfin, hf]
          · simp only [WireSegment.Sequenced, sequenceLength, hsyn, hs, hfirst, Bool.and_self,
              Bool.toNat_true]
            omega
        · refine WireSegment.sequenced_of_payload ?_
          simpa [List.take_eq_nil_iff, hnil] using Nat.ne_of_gt hmss
      unfold sendTCPLoop
      dsimp only
      split
      · exact hone _ fun hnil => by simp [hnil]
      · rename_i hmore
        have hleft : rest.drop mss ≠ [] := by simpa using hmore
        exact (hone _ fun hnil => by simp [hnil]).trans (ih _ _ _ _ _ (.inl hleft))

/-- `sendTCP` changes `relaySeq` and what has been sent, nothing else. -/
theorem sendTCPLoop_changes (cfg : Settings) (mss : Nat) (flags : Flags) (advance : Bool)
    (fuel : Nat) (c : Conn) (sequence : Seq) (isFirst : Bool) (rest : Bytes)
    (segments : List SentSegment) :
    ∃ wires relaySeq,
      (sendTCPLoop cfg mss flags advance fuel c sequence isFirst rest segments).1 =
        { c with sent := c.sent ++ wires, send := { c.send with relaySeq } } := by
  induction fuel generalizing c sequence isFirst rest segments with
  | zero => exact ⟨[], c.send.relaySeq, by rw [List.append_nil]; rfl⟩
  | succ fuel ih =>
      unfold sendTCPLoop
      dsimp only
      split
      · exact ⟨_, _, rfl⟩
      · generalize hsent : c.sendChunk cfg sequence (rest.take mss) _ advance = result
        obtain ⟨wire, relaySeq, hchunk⟩ : ∃ wire relaySeq, result.1 =
            { c with sent := c.sent ++ [wire], send := { c.send with relaySeq } } :=
          hsent ▸ ⟨_, _, rfl⟩
        obtain ⟨wires, relaySeq', hloop⟩ := ih result.1 _ false _ _
        refine ⟨wire :: wires, relaySeq', hloop.trans ?_⟩
        rw [hchunk, List.append_assoc]
        rfl

theorem trackAll_changes {segments : List SentSegment} (h : c.trackAll segments = .ok c') :
    ∃ q, c' = c.withQueue q := by
  induction segments generalizing c with
  | nil =>
      cases h
      exact ⟨c'.send.retransmission, rfl⟩
  | cons segment rest ih =>
      unfold trackAll at h
      split at h
      · cases h
      · rename_i q added htrack
        exact ih (c := c.withQueue q) h

/-- `sendTrackedTCP` changes the queue as well, by what it tracks. -/
theorem sendTrackedTCP_changes {payload : Bytes} {flags : Flags} {sequence : Option Seq}
    {advance : Bool} (h : c.sendTrackedTCP cfg payload flags sequence advance = .ok c') :
    ∃ wires relaySeq retransmission, c' = { c with
      sent := c.sent ++ wires, send := { c.send with relaySeq, retransmission } } := by
  change (c.sendTCP cfg payload flags sequence advance).1.trackAll
    (c.sendTCP cfg payload flags sequence advance).2 = .ok c' at h
  obtain ⟨q, hq⟩ := trackAll_changes h
  obtain ⟨wires, relaySeq, hloop⟩ := sendTCPLoop_changes cfg (c.tcpMss cfg) flags advance
    (payload.length + 1) c (sequence.getD c.send.relaySeq) true payload []
  refine ⟨wires, relaySeq, q, hq.trans ?_⟩
  unfold sendTCP
  rw [hloop]
  rfl

/-- Only bookkeeping of the loop itself has changed: timers, the pacer, the
limiter. -/
structure Quiet (c c' : Conn) : Prop where
  sent : c'.sent = c.sent
  state : c'.state = c.state
  finSent : c'.send.finSent = c.send.finSent
  dupAckCount : c'.send.dupAckCount = c.send.dupAckCount
  fastRetransmitAck : c'.send.fastRetransmitAck = c.send.fastRetransmitAck
  vmWindow : c'.send.vmWindow = c.send.vmWindow
  relaySeq : c'.send.relaySeq = c.send.relaySeq
  retransmission : c'.send.retransmission = c.send.retransmission

/-- A relation between the connections before and after the parts of the send
loop: its bookkeeping, a segment of data, and the FIN. -/
structure Persists (cfg : Settings) (R : Conn → Conn → Prop) : Prop where
  trans : ∀ {c c' c''}, R c c' → R c' c'' → R c c''
  quiet : ∀ {c c'}, Quiet c c' → R c c'
  data : ∀ {c c' payload}, payload ≠ [] → payload.length ≤ c.tcpMss cfg →
    c.sendTrackedTCP cfg payload { ack := true, psh := true } none true = .ok c' → R c c'
  fin : ∀ {c c'}, c.send.finSent = false → c.sendFin cfg = .ok c' → R c c'

/-- Where bytes are missing the loop takes at least one, or throws. -/
theorem takeLoop_ne_nil {needed : Nat} {chunk chunk' : Bytes} {queue queue' : List Bytes}
    (hneeded : 0 < needed) (h : takeLoop needed chunk queue = .ok (chunk', queue')) :
    chunk' ≠ [] := by
  induction queue generalizing needed chunk with
  | nil => cases h
  | cons current rest ih =>
      unfold takeLoop at h
      dsimp only at h
      generalize (if min current.length needed = current.length then rest
        else current.drop (min current.length needed) :: rest) = left at h
      split at h
      · cases h
      split at h
      · exact ih (by omega) h
      · rename_i hall
        cases h
        have hpos : 0 < (current.take (min current.length needed)).length := by
          rw [List.length_take]
          omega
        intro hnil
        rw [(List.append_eq_nil_iff.mp hnil).2] at hpos
        exact Nat.lt_irrefl 0 hpos

/-- What is taken from the queue is never empty. -/
theorem takeQueuedBytes_ne_nil {limit length : Nat} {chunk : Bytes} {queue queue' : List Bytes}
    (h : takeQueuedBytes limit queue length = .ok (chunk, queue')) : chunk ≠ [] := by
  unfold takeQueuedBytes at h
  split at h
  · cases h
  rename_i hpos
  split at h
  · cases h
  rename_i first rest
  split at h
  · rename_i hlong
    cases h
    intro hnil
    have hlen := congrArg List.length hnil
    rw [List.length_take, List.length_nil] at hlen
    omega
  split at h
  · cases h
  · exact takeLoop_ne_nil (Nat.pos_of_ne_zero (not_or.mp hpos).2) h

theorem isTCPCongestionRecoveryActive_quiet (c : Conn) :
    Quiet c c.isTCPCongestionRecoveryActive.1 := by
  obtain ⟨recoveryUntil, he⟩ := isTCPCongestionRecoveryActive_eq c
  rw [he]
  exact ⟨rfl, rfl, rfl, rfl, rfl, rfl, rfl, rfl⟩

/-- `maybeFin` changes what belongs to the FIN, and may forget the recovery
point. -/
theorem maybeFin_changes (h : c.maybeFin cfg = .ok c') :
    ∃ state wires relaySeq retransmission pendingFin finSent congestionRecoveryUntil,
      c' = { c with
        state
        sent := c.sent ++ wires
        send := { c.send with
          relaySeq, retransmission, pendingFin, finSent, congestionRecoveryUntil } } := by
  rw [maybeFin_eq] at h
  unfold maybeSendFin at h
  split at h
  · cases h
    exact ⟨_, [], _, _, _, _, _, by rw [List.append_nil]⟩
  · obtain ⟨recoveryUntil, he⟩ := isTCPCongestionRecoveryActive_eq c
    dsimp only at h
    rw [he] at h
    split at h
    · cases h
      exact ⟨_, [], _, _, _, _, _, by rw [List.append_nil]⟩
    · obtain ⟨wires, relaySeq, retransmission, hc⟩ := sendTrackedTCP_changes h
      exact ⟨_, wires, relaySeq, retransmission, _, _, recoveryUntil, hc⟩

namespace Persists

variable {R : Conn → Conn → Prop}

/-- The FIN, if it is due, and the bookkeeping around it. -/
theorem maybeFin (hR : Persists cfg R) (h : c.maybeFin cfg = .ok c') : R c c' := by
  rw [maybeFin_eq] at h
  unfold maybeSendFin at h
  split at h
  · cases h
    exact hR.quiet ⟨rfl, rfl, rfl, rfl, rfl, rfl, rfl, rfl⟩
  · rename_i hunsent
    dsimp only at h
    have hactive := isTCPCongestionRecoveryActive_quiet c
    split at h
    · cases h
      exact hR.quiet hactive
    · refine hR.trans (hR.quiet hactive) (hR.fin (hactive.finSent.trans ?_) h)
      simp only [Bool.or_eq_true, not_or, Bool.not_eq_true] at hunsent
      exact hunsent.1.1.2

/-- Taking bytes off the queue and sending them in a segment of data. -/
theorem sendQueued (hR : Persists cfg R) {toSend : Nat} (hmss : toSend ≤ c.tcpMss cfg)
    (h : c.sendQueued cfg toSend = .ok c') : R c c' := by
  unfold Conn.sendQueued at h
  split at h
  · cases h
  · rename_i chunk queue htake
    split at h
    · cases h
    · rename_i c₁ hsend
      cases h
      have htaken : Quiet c (c.withSendQueue queue) := ⟨rfl, rfl, rfl, rfl, rfl, rfl, rfl, rfl⟩
      have hconsumed : Quiet c₁ (c₁.consumeTCPQueuedData cfg toSend) :=
        ⟨rfl, rfl, rfl, rfl, rfl, rfl, rfl, rfl⟩
      have hshort : chunk.length ≤ (c.withSendQueue queue).tcpMss cfg :=
        (takeQueuedBytes_length htake).trans hmss
      have hsent := hR.data (takeQueuedBytes_ne_nil htake) hshort hsend
      exact hR.trans (hR.trans (hR.quiet htaken) hsent) (hR.quiet hconsumed)

/-- An iteration from the limiter on, whatever the limiter says. -/
theorem sendStep (hR : Persists cfg R) {rateLimited goesOn : Bool}
    {cooperativeSegments available toSend : Nat} (hmss : toSend ≤ c.tcpMss cfg)
    (h : c.sendStep cfg turn rateLimited cooperativeSegments available toSend =
      .ok (c', goesOn)) : R c c' := by
  unfold Conn.sendStep at h
  obtain ⟨rateLimiter, hlimiter⟩ := tryConsume_eq turn c rateLimited toSend
  generalize c.tryConsume turn rateLimited toSend = admission at h hlimiter
  obtain ⟨c₁, admitted⟩ := admission
  obtain rfl : c₁ = _ := hlimiter
  dsimp only at h
  split at h
  · cases h
    exact hR.quiet ⟨rfl, rfl, rfl, rfl, rfl, rfl, rfl, rfl⟩
  split at h
  · cases h
  · rename_i c₂ hsend
    have hadmitted : Quiet c { c with rateLimiter } := ⟨rfl, rfl, rfl, rfl, rfl, rfl, rfl, rfl⟩
    have hpaced : Quiet c₂ (c₂.notePacedTCPSegment turn).1 := ⟨rfl, rfl, rfl, rfl, rfl, rfl, rfl, rfl⟩
    have hqueued := hR.trans (hR.trans (hR.quiet hadmitted) (hR.sendQueued hmss hsend))
      (hR.quiet hpaced)
    split at h
    · cases h
      exact hqueued
    split at h
    · generalize hstop : (c₂.notePacedTCPSegment turn).1.stopSending.maybeFin cfg = outcome at h
      cases outcome with
      | error thrown => cases h
      | ok c₃ =>
          cases h
          have hstopped : Quiet (c₂.notePacedTCPSegment turn).1
              (c₂.notePacedTCPSegment turn).1.stopSending := ⟨rfl, rfl, rfl, rfl, rfl, rfl, rfl, rfl⟩
          exact hR.trans (hR.trans hqueued (hR.quiet hstopped)) (hR.maybeFin hstop)
    split at h
    · cases h
      exact hR.trans hqueued (hR.quiet ⟨rfl, rfl, rfl, rfl, rfl, rfl, rfl, rfl⟩)
    · cases h
      exact hqueued

/-- An iteration of the send loop, which ends early or comes to the limiter. -/
theorem drainStep (hR : Persists cfg R) {rateLimited goesOn : Bool} {cooperativeSegments : Nat}
    (h : c.drainStep cfg turn rateLimited cooperativeSegments = .ok (c', goesOn)) : R c c' := by
  have hstopped : Quiet c c.stopSending := ⟨rfl, rfl, rfl, rfl, rfl, rfl, rfl, rfl⟩
  unfold Conn.drainStep at h
  split at h
  · cases h
    exact hR.quiet hstopped
  split at h
  · generalize hstop : c.stopSending.maybeFin cfg = outcome at h
    cases outcome with
    | error thrown => cases h
    | ok c₁ =>
        cases h
        exact hR.trans (hR.quiet hstopped) (hR.maybeFin hstop)
  split at h
  · cases h
    exact hR.quiet ⟨rfl, rfl, rfl, rfl, rfl, rfl, rfl, rfl⟩
  · have hactive := hR.quiet (isTCPCongestionRecoveryActive_quiet c)
    generalize c.isTCPCongestionRecoveryActive = recovery at h hactive
    obtain ⟨c₁, recovering⟩ := recovery
    dsimp only at h hactive
    generalize (if recovering = true then 0 else
      c.tcpSendLimit cfg - c.send.retransmission.payloadBytesInFlight) = room at h
    split at h
    · cases h
      exact hR.trans hactive (hR.quiet ⟨rfl, rfl, rfl, rfl, rfl, rfl, rfl, rfl⟩)
    · exact hR.trans hactive (hR.sendStep (Nat.min_le_left _ _) h)

/-- The loop, by induction on its fuel, with one case for each exit of an
iteration. -/
theorem drainLoop (hR : Persists cfg R) {rateLimited : Bool} {fuel cooperativeSegments : Nat}
    (h : Conn.drainLoop cfg turn rateLimited fuel cooperativeSegments c = .ok c') : R c c' := by
  induction fuel generalizing c cooperativeSegments with
  | zero => cases h
  | succ fuel ih =>
      unfold Conn.drainLoop at h
      split at h
      · cases h
      · rename_i c₁ hstep
        cases h
        exact hR.drainStep hstep
      · rename_i c₁ hstep
        exact hR.trans (hR.drainStep hstep) (ih h)

theorem drainTCPToVM (hR : Persists cfg R) {rateLimited : Bool}
    (hswitch : R { c with send := { c.send with sending := true } }
      (({ c with send := { c.send with sending := true } } : Conn).setPersist cfg turn c.wantsPersist))
    (h : c.drainTCPToVM cfg turn rateLimited = .ok c') : R c c' :=
  have hmarked : Quiet c { c with send := { c.send with sending := true } } :=
    ⟨rfl, rfl, rfl, rfl, rfl, rfl, rfl, rfl⟩
  hR.trans (hR.trans (hR.quiet hmarked) hswitch) (hR.drainLoop h)

end Persists

/-- What the send loop does, as far as the ACK part of a handler is concerned. -/
structure Pushed (c c' : Conn) : Prop where
  sent : Sequences c c'
  dupAckCount : c'.send.dupAckCount = c.send.dupAckCount
  fastRetransmitAck : c'.send.fastRetransmitAck = c.send.fastRetransmitAck

namespace Pushed

theorem of_eq (hsent : c'.sent = c.sent) (hcount : c'.send.dupAckCount = c.send.dupAckCount)
    (hack : c'.send.fastRetransmitAck = c.send.fastRetransmitAck) : Pushed c c' :=
  ⟨.of_sent hsent, hcount, hack⟩

theorem refl (c : Conn) : Pushed c c := of_eq rfl rfl rfl

theorem trans (h : Pushed c c') (h' : Pushed c' c'') : Pushed c c'' :=
  ⟨h.sent.trans h'.sent, h'.dupAckCount.trans h.dupAckCount,
    h'.fastRetransmitAck.trans h.fastRetransmitAck⟩

end Pushed

theorem sendTrackedTCP_pushed {payload : Bytes} {flags : Flags} {sequence : Option Seq}
    {advance : Bool} (hspace : payload ≠ [] ∨ flags.fin = true)
    (h : c.sendTrackedTCP cfg payload flags sequence advance = .ok c') : Pushed c c' := by
  obtain ⟨wires, relaySeq, retransmission, hc⟩ := sendTrackedTCP_changes h
  change (c.sendTCP cfg payload flags sequence advance).1.trackAll
    (c.sendTCP cfg payload flags sequence advance).2 = .ok c' at h
  obtain ⟨q, hq⟩ := trackAll_changes h
  have hloop := sendTCPLoop_sequences cfg (tcpMss_pos cfg c) flags advance (payload.length + 1) c
    (sequence.getD c.send.relaySeq) true payload [] (hspace.imp_right .inl)
  exact ⟨Sequences.trans hloop (.of_sent (by rw [hq]; rfl)), by rw [hc], by rw [hc]⟩

theorem pushed_persists (cfg : Settings) : Persists cfg Pushed where
  trans := Pushed.trans
  quiet h := .of_eq h.sent h.dupAckCount h.fastRetransmitAck
  data hpayload _ h := sendTrackedTCP_pushed (.inl hpayload) h
  fin {c _} _ h :=
    have hmarked : Pushed c c.markFin := .of_eq rfl rfl rfl
    hmarked.trans (sendTrackedTCP_pushed (.inr rfl) h)

/-- A tracked segment occupies sequence space, whenever it is sent. -/
theorem resend_sequences (cfg : Settings) (c : Conn) {segment : Segment}
    (hspace : 0 < sequenceLength segment.payload segment.flags) :
    Sequences c (c.resend cfg segment) := by
  refine sendTCPLoop_sequences cfg (tcpMss_pos cfg c) segment.flags false
    (segment.payload.length + 1) c segment.seq true segment.payload [] ?_
  cases hpayload : segment.payload with
  | cons b rest => exact .inl (List.cons_ne_nil b rest)
  | nil =>
      cases hfin : segment.flags.fin with
      | true => exact .inr (.inl rfl)
      | false =>
          cases hsyn : segment.flags.syn with
          | true => exact .inr (.inr ⟨rfl, rfl⟩)
          | false => simp [sequenceLength, hpayload, hfin, hsyn] at hspace

theorem oldest_sequenced {q : RetransmissionQueue} (h : q.WellTracked) {segment : Segment}
    (hold : q.oldest = some segment) : 0 < sequenceLength segment.payload segment.flags := by
  have hcontiguous := h.contiguous
  cases hsegments : q.segments with
  | nil => simp [RetransmissionQueue.oldest, hsegments] at hold
  | cons first rest =>
      obtain rfl : first = segment := by
        simpa [RetransmissionQueue.oldest, hsegments] using hold
      rw [hsegments] at hcontiguous
      obtain ⟨-, hlen, hpos, -⟩ := hcontiguous
      rw [← itemsOf_length]
      exact hlen ▸ hpos

theorem onTCPCongestionLoss_sent (cfg : Settings) (c : Conn) (reason : Reason) :
    (c.onTCPCongestionLoss cfg reason).sent = c.sent := by
  unfold onTCPCongestionLoss
  dsimp only
  split <;> rfl

theorem onRetransmit_sequences (cfg : Settings) (c : Conn) {segment : Segment}
    (hspace : 0 < sequenceLength segment.payload segment.flags) (reason : Reason) :
    Sequences c (c.onRetransmit cfg segment reason) := by
  unfold onRetransmit
  split
  · exact .of_sent rfl
  · dsimp only
    refine Sequences.trans (.of_sent ?_) (resend_sequences cfg _ hspace)
    split
    · exact onTCPCongestionLoss_sent cfg c reason
    · rfl

theorem fastRetransmit_sequences (cfg : Settings) (turn : Turn) (h : c.send.retransmission.WellTracked) :
    Sequences c (c.fastRetransmit cfg turn) := by
  obtain he | ⟨segment, hold, -, -, he⟩ := fastRetransmit_cases cfg turn c
  · rw [he]
    exact .refl c
  · rw [he]
    exact onRetransmit_sequences cfg (c.withQueue _) (oldest_sequenced h hold) .fast

/-- Leaving persist mode repeats the oldest segment, without a sign of loss. -/
theorem onRetransmit_windowOpen_pushed (cfg : Settings) (c : Conn) {segment : Segment}
    (hspace : 0 < sequenceLength segment.payload segment.flags) :
    Pushed c (c.onRetransmit cfg segment .windowOpen) := by
  obtain ⟨wires, hresent⟩ := resend_eq cfg c segment
  have hsame : (c.onRetransmit cfg segment .windowOpen).send.dupAckCount = c.send.dupAckCount ∧
      (c.onRetransmit cfg segment .windowOpen).send.fastRetransmitAck =
        c.send.fastRetransmitAck := by
    unfold onRetransmit
    split
    · exact ⟨rfl, rfl⟩
    · simp only [ne_eq, not_true_eq_false, if_false, hresent, emit_send, and_self]
  exact ⟨onRetransmit_sequences cfg c hspace .windowOpen, hsame.1, hsame.2⟩

theorem setPersist_pushed (cfg : Settings) (turn : Turn) (h : c.send.retransmission.WellTracked)
    (enabled : Bool) : Pushed c (c.setPersist cfg turn enabled) := by
  obtain ⟨-, he⟩ | ⟨-, -, -, he⟩ | ⟨segment, -, hold, -, -, he⟩ :=
    setPersist_cases cfg turn c enabled
  · rw [he]
    exact .refl c
  · rw [he]
    exact .of_eq rfl rfl rfl
  · rw [he]
    have hresent := onRetransmit_windowOpen_pushed cfg
      (c.withQueue (c.send.retransmission.switchPersist enabled)) (oldest_sequenced h hold)
    exact ⟨hresent.sent, hresent.dupAckCount, hresent.fastRetransmitAck⟩

/-- The send loop, from the setting of persist mode on. -/
theorem drainTCPToVM_pushed {rateLimited : Bool} (htracked : c.send.retransmission.WellTracked)
    (h : c.drainTCPToVM cfg turn rateLimited = .ok c') : Pushed c c' :=
  have hmarked : ({ c with send := { c.send with sending := true } } :
      Conn).send.retransmission.WellTracked := htracked
  (pushed_persists cfg).drainTCPToVM (setPersist_pushed cfg turn hmarked _) h

theorem trySendToVM_pushed (htracked : c.send.retransmission.WellTracked)
    (h : c.trySendToVM cfg turn = .ok c') : Pushed c c' := by
  unfold trySendToVM at h
  split at h
  · cases h
    exact .refl _
  · exact drainTCPToVM_pushed htracked h

theorem trySendReverseToVM_pushed (htracked : c.send.retransmission.WellTracked)
    (h : c.trySendReverseToVM cfg turn = .ok c') : Pushed c c' := by
  unfold trySendReverseToVM at h
  split at h
  · cases h
    exact .refl _
  · exact drainTCPToVM_pushed htracked h

/-- An acknowledgement that advances sends nothing but what occupies sequence
space. -/
theorem noteAdvancedAck_sequences (htracked : c.send.retransmission.WellTracked)
    (ackedDataBytes : Nat) (ackNum : Seq) :
    Sequences c (c.noteAdvancedAck cfg ackedDataBytes ackNum) := by
  unfold noteAdvancedAck onTCPCongestionAck
  dsimp only
  split
  · exact .of_sent rfl
  split
  · split
    · exact .of_sent rfl
    · unfold retransmitTCPRecoveryHead
      split
      · exact .of_sent rfl
      · rename_i segment hold
        refine Sequences.trans (.of_sent ?_) (resend_sequences cfg _ (oldest_sequenced htracked hold))
        rfl
  · exact .of_sent rfl

theorem noteDuplicateAck_sequences (turn : Turn) (htracked : c.send.retransmission.WellTracked)
    (ackNum : Seq) : Sequences c (c.noteDuplicateAck cfg turn ackNum) := by
  unfold noteDuplicateAck
  dsimp only
  split
  · split
    · have hresent := fastRetransmit_sequences cfg turn (c := { c with
        send := { c.send with dupAckCount := c.send.dupAckCount + 1 } }) htracked
      exact hresent
    · exact .of_sent rfl
  · exact .of_sent rfl

end Conn

end RootlessRelay
