import RootlessRelay.Tcp.Agreement
import RootlessRelay.Tcp.Starvation

/-!
# What a callback may send

Most of what a connection does leaves the receiving side where it is. Whatever
such a function sends acknowledges `vmSeq`, fits the header of the segment, and
leaves a queue whose segments can be repeated in the same way. `Sends` packs
this; it also counts how often the limiter refused, since each refusal schedules
a retry.

There is one lemma for each function of the sending side, in the order in which
they call each other, and `Sends.trans` composes them. What remains for a
segment of the VM is the receiving side, which other modules add; `handle_sends`
says that all other callbacks come down to functions of this kind.
-/

namespace RootlessRelay

/-- A segment that may be repeated as it is: its window is one of those
`sendTCP` is given, and a SYN carries no payload. -/
structure Plain (cfg : Settings) (payload : Bytes) (flags : Flags) : Prop where
  window : ∀ windowSize, flags.windowSize = some windowSize →
    windowSize ≤ max 0xffff cfg.tcpWindowSize
  syn : flags.syn = true → payload = []

namespace WireSegment

/-- What `sendTCP` keeps to: the window, a payload of at most one MSS, and a SYN
that is alone and carries the MSS option. -/
structure Bounded (cfg : Settings) (wire : WireSegment) : Prop where
  window : wire.window ≤ max 0xffff cfg.tcpWindowSize
  payload : wire.payload.length ≤ cfg.TCP_MSS
  syn : wire.flags.syn = true → wire.payload = []
  mss : wire.mss = if wire.flags.syn then some cfg.TCP_MSS else none

end WireSegment

namespace RetransmissionQueue

variable {cfg : Settings} {q q' : RetransmissionQueue}

/-- Every tracked segment may be repeated as it is. -/
def Repeatable (cfg : Settings) (q : RetransmissionQueue) : Prop :=
  ∀ segment ∈ q.segments, Plain cfg segment.payload segment.flags

theorem Repeatable.of_segments (h : q.Repeatable cfg) (hseg : q'.segments = q.segments) :
    q'.Repeatable cfg := by
  unfold Repeatable
  rw [hseg]
  exact h

theorem Repeatable.close (h : q.Repeatable cfg) : q.close.Repeatable cfg := by
  unfold RetransmissionQueue.close
  split
  · exact h
  · exact fun segment hmem => absurd hmem List.not_mem_nil

theorem Repeatable.oldest (h : q'.Repeatable cfg) (hseg : q'.segments = q.segments)
    {segment : Segment} (hold : q.oldest = some segment) :
    Plain cfg segment.payload segment.flags :=
  h segment (hseg ▸ List.mem_of_mem_head? hold)

/-- A plain segment may be tracked and repeated. -/
theorem Repeatable.track (h : q.Repeatable cfg) {sent : SentSegment} {added : Bool}
    (hplain : Plain cfg sent.payload sent.flags) (htrack : q.track sent = .ok (q', added)) :
    q'.Repeatable cfg := by
  have happend : (q.append sent).Repeatable cfg := by
    intro segment hmem
    rcases List.mem_append.mp hmem with hold | hnew
    · exact h segment hold
    · rw [List.mem_singleton.mp hnew]
      exact hplain
  obtain ⟨-, he⟩ | ⟨-, -, -, he⟩ | ⟨-, -, -, -, he⟩ | ⟨-, -, -, -, he⟩ := track_cases q sent
  · rw [he] at htrack
    cases htrack
  · rw [he] at htrack
    cases htrack
    exact h
  · rw [he] at htrack
    cases htrack
  · rw [he] at htrack
    cases htrack
    split
    · exact happend.of_segments (armTimer_segments _)
    · exact happend

/-- A segment cut short at its front has no flag and no byte it did not have
before. -/
theorem consumeSegmentPrefix_plain {segment segment' : Segment} {count consumed : Nat}
    (h : consumeSegmentPrefix segment count = .ok (segment', consumed))
    (hplain : Plain cfg segment.payload segment.flags) :
    Plain cfg segment'.payload segment'.flags := by
  unfold consumeSegmentPrefix at h
  dsimp only at h
  generalize hfirst : (if segment.flags.syn = true ∧ count > 0 then
    ({ segment with
        flags := { segment.flags with syn := false }
        sequenceLength := segment.sequenceLength - 1 }, count - 1)
    else (segment, count)) = first at h
  have h₁ : Plain cfg first.1.payload first.1.flags := by
    rw [← hfirst]
    split
    · exact ⟨hplain.window, nofun⟩
    · exact hplain
  obtain ⟨s₁, left₁⟩ := first
  dsimp only at h h₁
  generalize hsecond : (if left₁ > 0 ∧ s₁.payload.length > 0 then
    ({ s₁ with
        payload := s₁.payload.drop (min left₁ s₁.payload.length)
        sequenceLength := s₁.sequenceLength - min left₁ s₁.payload.length },
      left₁ - min left₁ s₁.payload.length, min left₁ s₁.payload.length)
    else (s₁, left₁, 0)) = second at h
  have h₂ : Plain cfg second.1.payload second.1.flags := by
    rw [← hsecond]
    split
    · exact ⟨h₁.window, fun hsyn => by rw [h₁.syn hsyn, List.drop_nil]⟩
    · exact h₁
  obtain ⟨s₂, left₂, data⟩ := second
  dsimp only at h h₂
  generalize hthird : (if s₂.flags.fin = true ∧ left₂ > 0 then
    ({ s₂ with
        flags := { s₂.flags with fin := false }
        sequenceLength := s₂.sequenceLength - 1 }, left₂ - 1)
    else (s₂, left₂)) = third at h
  have h₃ : Plain cfg third.1.payload third.1.flags := by
    rw [← hthird]
    split
    · exact ⟨h₂.window, h₂.syn⟩
    · exact h₂
  split at h
  · cases h
  · cases h
    exact h₃

/-- What an acknowledgement leaves of the segments can be repeated as well. -/
theorem acknowledgeLoop_repeatable {segments segments' : List Segment}
    {remaining ackedDataBytes inFlight acked left : Nat}
    (h : acknowledgeLoop remaining ackedDataBytes inFlight segments = .ok (segments', acked, left))
    (hplain : ∀ segment ∈ segments, Plain cfg segment.payload segment.flags) :
    ∀ segment ∈ segments', Plain cfg segment.payload segment.flags := by
  induction segments generalizing remaining ackedDataBytes inFlight with
  | nil =>
      unfold acknowledgeLoop at h
      split at h
      · cases h
      · cases h
        exact hplain
  | cons first rest ih =>
      obtain ⟨hfirst, hrest⟩ := List.forall_mem_cons.mp hplain
      unfold acknowledgeLoop at h
      split at h
      · cases h
        exact hplain
      split at h
      · exact ih h hrest
      split at h
      · cases h
      · rename_i shortened consumed hconsumed
        cases h
        exact List.forall_mem_cons.mpr ⟨consumeSegmentPrefix_plain hconsumed hfirst, hrest⟩

/-- So the queue stays repeatable through an acknowledgement. -/
theorem Repeatable.acknowledge (h : q.Repeatable cfg) {ack : Seq} {result : AckResult}
    (hack : q.acknowledge ack = .ok (q', result)) : q'.Repeatable cfg := by
  unfold RetransmissionQueue.acknowledge at hack
  dsimp only at hack
  split at hack
  · cases hack
    split
    · exact h
    · exact h
  split at hack
  · cases hack
    exact h
  split at hack
  · cases hack
    exact h
  split at hack
  · cases hack
  · rename_i segments acked inFlight hloop
    cases hack
    exact Repeatable.of_segments (q := { q with segments }) (acknowledgeLoop_repeatable hloop h)
      (armTimer_segments _)

theorem Repeatable.countRetransmission (h : q.Repeatable cfg) :
    ({ q with segments := countRetransmission q.segments } : RetransmissionQueue).Repeatable
      cfg := by
  unfold Repeatable at h ⊢
  cases hseg : q.segments with
  | nil => exact fun segment hmem => absurd hmem List.not_mem_nil
  | cons first rest =>
      rw [hseg] at h
      exact List.forall_mem_cons.mpr (List.forall_mem_cons.mp h)

end RetransmissionQueue

namespace Conn

variable {cfg : Settings} {turn : Turn} {c c' c'' : Conn} {refusals refusals' : Nat}

/-- From `c` to `c'` segments have been sent, with `refusals` refusals of the
limiter, and nothing was taken from the VM. -/
structure Sends (cfg : Settings) (refusals : Nat) (c c' : Conn) : Prop where
  direction : c'.direction = c.direction
  tx : c'.tx = c.tx
  vmSeq : c'.recv.vmSeq = c.recv.vmSeq
  retries : c'.send.rateRetries = c.send.rateRetries + refusals
  repeatable : c.send.retransmission.Repeatable cfg → c'.send.retransmission.Repeatable cfg
  wires : ∃ wires, c'.sent = c.sent ++ wires ∧ ∀ wire ∈ wires,
    wire.flow = c.tx ∧ wire.acknowledgment = c.recv.vmSeq ∧
      (c.send.retransmission.Repeatable cfg → wire.Bounded cfg)

namespace Sends

theorem of_eq (hsame : (c'.direction, c'.tx) = (c.direction, c.tx))
    (hseq : c'.recv.vmSeq = c.recv.vmSeq)
    (hretries : c'.send.rateRetries = c.send.rateRetries + refusals)
    (hrepeatable : c.send.retransmission.Repeatable cfg →
      c'.send.retransmission.Repeatable cfg)
    (hsent : c'.sent = c.sent) : Sends cfg refusals c c' :=
  ⟨congrArg Prod.fst hsame, congrArg Prod.snd hsame, hseq, hretries, hrepeatable, [],
    by rw [hsent, List.append_nil], by simp⟩

theorem refl (c : Conn) : Sends cfg 0 c c := of_eq rfl rfl rfl id rfl

theorem trans (h : Sends cfg refusals c c') (h' : Sends cfg refusals' c' c'') :
    Sends cfg (refusals + refusals') c c'' := by
  obtain ⟨wires, hsent, hwires⟩ := h.wires
  obtain ⟨wires', hsent', hwires'⟩ := h'.wires
  refine ⟨h'.direction.trans h.direction, h'.tx.trans h.tx, h'.vmSeq.trans h.vmSeq, ?_,
    fun hq => h'.repeatable (h.repeatable hq), wires ++ wires', ?_, fun wire hmem => ?_⟩
  · rw [h'.retries, h.retries, Nat.add_assoc]
  · rw [hsent', hsent, List.append_assoc]
  · rcases List.mem_append.mp hmem with hold | hnew
    · exact hwires wire hold
    · obtain ⟨hflow, hack, hbounded⟩ := hwires' wire hnew
      exact ⟨hflow.trans h.tx, hack.trans h.vmSeq, fun hq => hbounded (h.repeatable hq)⟩

/-- One more function that the limiter has no part in. -/
theorem andThen (h : Sends cfg refusals c c') (h' : Sends cfg 0 c' c'') :
    Sends cfg refusals c c'' := h.trans h'

theorem after (h : Sends cfg 0 c c') (h' : Sends cfg refusals c' c'') :
    Sends cfg refusals c c'' := by
  have both := h.trans h'
  rwa [Nat.zero_add] at both

/-- Another queue, with the same segments or segments that can be repeated too. -/
theorem withQueue {q : RetransmissionQueue}
    (hq : c.send.retransmission.Repeatable cfg → q.Repeatable cfg) :
    Sends cfg 0 c (c.withQueue q) := of_eq rfl rfl rfl hq rfl

/-- Segments handed over by a function that changes nothing else. -/
theorem emit {wires : List WireSegment} (h : ∀ wire ∈ wires,
    wire.flow = c.tx ∧ wire.acknowledgment = c.recv.vmSeq ∧
      (c.send.retransmission.Repeatable cfg → wire.Bounded cfg)) :
    Sends cfg 0 c (c.emit wires) := ⟨rfl, rfl, rfl, rfl, id, wires, rfl, h⟩

end Sends

theorem tcpReceiveWindow_le (cfg : Settings) (c : Conn) : c.tcpReceiveWindow cfg ≤ 0xffff := by
  unfold tcpReceiveWindow
  split
  · exact Nat.zero_le _
  · exact Nat.min_le_left _ _

/-- What one chunk puts on the wire and into the list of `sendTCP`. -/
theorem sendChunk_sends (cfg : Settings) {P : Prop} {chunk : Bytes} {flags : Flags}
    (hlen : chunk.length ≤ cfg.TCP_MSS) (hplain : P → Plain cfg chunk flags) (c : Conn)
    (sequence : Seq) (advance : Bool) :
    ∃ wire, (c.sendChunk cfg sequence chunk flags advance).1.sent = c.sent ++ [wire] ∧
      wire.flow = c.tx ∧ wire.acknowledgment = c.recv.vmSeq ∧ (P → wire.Bounded cfg) ∧
      (P → ∀ segment ∈ (c.sendChunk cfg sequence chunk flags advance).2.toList,
        Plain cfg segment.payload segment.flags) := by
  refine ⟨c.wire cfg sequence chunk flags, rfl, rfl, rfl,
    fun hp => ⟨?_, hlen, (hplain hp).syn, rfl⟩, fun hp segment hmem => ?_⟩
  · change flags.windowSize.getD (c.tcpReceiveWindow cfg) ≤ _
    cases hwindow : flags.windowSize with
    | none => exact (tcpReceiveWindow_le cfg c).trans (Nat.le_max_left _ _)
    | some windowSize => exact (hplain hp).window windowSize hwindow
  · unfold sendChunk at hmem
    dsimp only at hmem
    split at hmem
    · rw [List.mem_singleton.mp hmem]
      exact hplain hp
    · cases hmem

/-- The chunks of a plain payload are plain. -/
theorem sendTCPLoop_sends (cfg : Settings) {P : Prop} {mss : Nat} (hmss : mss ≤ cfg.TCP_MSS)
    (flags : Flags) (advance : Bool) (fuel : Nat) (c : Conn) (sequence : Seq) (isFirst : Bool)
    (rest : Bytes) (segments : List SentSegment)
    (hplain : P → Plain cfg rest { flags with syn := flags.syn && isFirst })
    (hsegments : P → ∀ segment ∈ segments, Plain cfg segment.payload segment.flags) :
    (∃ wires, (sendTCPLoop cfg mss flags advance fuel c sequence isFirst rest segments).1.sent =
        c.sent ++ wires ∧
      ∀ wire ∈ wires, wire.flow = c.tx ∧ wire.acknowledgment = c.recv.vmSeq ∧
        (P → wire.Bounded cfg)) ∧
    (P → ∀ segment ∈
      (sendTCPLoop cfg mss flags advance fuel c sequence isFirst rest segments).2,
      Plain cfg segment.payload segment.flags) := by
  induction fuel generalizing c sequence isFirst rest segments with
  | zero => exact ⟨⟨[], (List.append_nil _).symm, by simp⟩, hsegments⟩
  | succ fuel ih =>
      have hchunk : ∀ psh fin, P → Plain cfg (rest.take mss)
          { flags with psh := psh, fin := fin, syn := flags.syn && isFirst } := fun psh fin hp =>
        ⟨(hplain hp).window, fun hsyn => by rw [(hplain hp).syn hsyn, List.take_nil]⟩
      have hrest : P → Plain cfg (rest.drop mss) { flags with syn := flags.syn && false } :=
        fun hp => ⟨(hplain hp).window, fun hsyn => by simp at hsyn⟩
      have hlen : (rest.take mss).length ≤ cfg.TCP_MSS := (List.length_take_le _ _).trans hmss
      unfold sendTCPLoop
      dsimp only
      obtain ⟨wire, hsent, hflow, hack, hbounded, htracked⟩ := sendChunk_sends cfg hlen
        (hchunk (flags.psh && (rest.drop mss).isEmpty) (flags.fin && (rest.drop mss).isEmpty)) c
        sequence advance
      have hsame : (fun c' : Conn => (c'.tx, c'.recv)) (c.sendChunk cfg sequence (rest.take mss)
          { flags with
            psh := flags.psh && (rest.drop mss).isEmpty
            fin := flags.fin && (rest.drop mss).isEmpty
            syn := flags.syn && isFirst } advance).1 = (c.tx, c.recv) := rfl
      generalize c.sendChunk cfg sequence (rest.take mss) _ advance = result
        at hsent htracked hsame ⊢
      obtain ⟨htx, hrecv⟩ := Prod.mk.inj hsame
      have hall : P → ∀ segment ∈ segments ++ result.2.toList,
          Plain cfg segment.payload segment.flags := fun hp segment hmem =>
        (List.mem_append.mp hmem).elim (hsegments hp segment) (htracked hp segment)
      have hone : ∀ w ∈ [wire], w.flow = c.tx ∧ w.acknowledgment = c.recv.vmSeq ∧
          (P → w.Bounded cfg) := by
        intro w hw
        rw [List.mem_singleton.mp hw]
        exact ⟨hflow, hack, hbounded⟩
      split
      · exact ⟨⟨[wire], hsent, hone⟩, hall⟩
      · suffices hnext : ∀ next,
            (∃ wires, (sendTCPLoop cfg mss flags advance fuel result.1 next false (rest.drop mss)
                (segments ++ result.2.toList)).1.sent = c.sent ++ wires ∧
              ∀ w ∈ wires, w.flow = c.tx ∧ w.acknowledgment = c.recv.vmSeq ∧
                (P → w.Bounded cfg)) ∧
            (P → ∀ segment ∈ (sendTCPLoop cfg mss flags advance fuel result.1 next false
              (rest.drop mss) (segments ++ result.2.toList)).2,
              Plain cfg segment.payload segment.flags) from hnext _
        intro next
        obtain ⟨⟨wires, hwires, hmore⟩, hlist⟩ := ih result.1 next false (rest.drop mss)
          (segments ++ result.2.toList) hrest hall
        refine ⟨⟨[wire] ++ wires, ?_, fun w hw => ?_⟩, hlist⟩
        · rw [hwires, hsent, List.append_assoc]
        · exact (List.mem_append.mp hw).elim (hone w) fun hw => hrecv ▸ htx ▸ hmore w hw

/-- `sendTCP` and the list it returns, for a payload that is plain. -/
theorem sendTCP_sends (cfg : Settings) {payload : Bytes} {flags : Flags} (c : Conn)
    (hplain : c.send.retransmission.Repeatable cfg → Plain cfg payload flags)
    (sequence : Option Seq) (advance : Bool) :
    Sends cfg 0 c (c.sendTCP cfg payload flags sequence advance).1 ∧
      (c.send.retransmission.Repeatable cfg →
        ∀ segment ∈ (c.sendTCP cfg payload flags sequence advance).2,
          Plain cfg segment.payload segment.flags) := by
  obtain ⟨hwires, hlist⟩ := sendTCPLoop_sends cfg (tcpMss_le cfg c) flags advance
    (payload.length + 1) c (sequence.getD c.send.relaySeq) true payload []
    (fun hq => ⟨(hplain hq).window, fun hsyn => (hplain hq).syn (by simpa using hsyn)⟩)
    (fun _ => by simp)
  obtain ⟨wires, relaySeq, hloop⟩ := sendTCPLoop_changes cfg (c.tcpMss cfg) flags advance
    (payload.length + 1) c (sequence.getD c.send.relaySeq) true payload []
  change (c.sendTCP cfg payload flags sequence advance).1 = _ at hloop
  refine ⟨⟨?_, ?_, ?_, ?_, fun hq => ?_, hwires⟩, hlist⟩
  · rw [hloop]
  · rw [hloop]
  · rw [hloop]
  · rw [hloop]
    rfl
  · rw [hloop]
    exact hq

/-- `track` changes the queue only, also when it throws. -/
theorem trackAll_cases (segments : List SentSegment) (c : Conn) :
    ∃ q, (c.trackAll segments = .ok (c.withQueue q) ∨
        ∃ fault, c.trackAll segments = .error ⟨fault, c.withQueue q⟩) ∧
      (c.send.retransmission.Repeatable cfg →
        (∀ segment ∈ segments, Plain cfg segment.payload segment.flags) → q.Repeatable cfg) := by
  induction segments generalizing c with
  | nil => exact ⟨c.send.retransmission, .inl rfl, fun hq _ => hq⟩
  | cons segment rest ih =>
      unfold trackAll
      cases htrack : c.send.retransmission.track segment with
      | error error => exact ⟨c.send.retransmission, .inr ⟨_, rfl⟩, fun hq _ => hq⟩
      | ok result =>
          obtain ⟨q, added⟩ := result
          obtain ⟨q', hcases, hrepeatable⟩ := ih (c.withQueue q)
          refine ⟨q', hcases, fun hq hplain => ?_⟩
          obtain ⟨hfirst, hrest⟩ := List.forall_mem_cons.mp hplain
          exact hrepeatable (hq.track hfirst htrack) hrest

/-- A tracked segment goes out, or `track` throws with it on the wire. -/
theorem sendTrackedTCP_cases {payload : Bytes} {flags : Flags} (c : Conn)
    (hplain : c.send.retransmission.Repeatable cfg → Plain cfg payload flags)
    (sequence : Option Seq) (advance : Bool) :
    ∃ c', Sends cfg 0 c c' ∧ (c.sendTrackedTCP cfg payload flags sequence advance = .ok c' ∨
      ∃ fault, c.sendTrackedTCP cfg payload flags sequence advance = .error ⟨fault, c'⟩) := by
  obtain ⟨hsent, hlist⟩ := sendTCP_sends cfg c hplain sequence advance
  change ∃ c', Sends cfg 0 c c' ∧
    ((c.sendTCP cfg payload flags sequence advance).1.trackAll
      (c.sendTCP cfg payload flags sequence advance).2 = .ok c' ∨
    ∃ fault, (c.sendTCP cfg payload flags sequence advance).1.trackAll
      (c.sendTCP cfg payload flags sequence advance).2 = .error ⟨fault, c'⟩)
  generalize c.sendTCP cfg payload flags sequence advance = result at hsent hlist
  obtain ⟨c₁, segments⟩ := result
  obtain ⟨q, hcases, hrepeatable⟩ := @trackAll_cases cfg segments c₁
  exact ⟨c₁.withQueue q, ⟨hsent.direction, hsent.tx, hsent.vmSeq, hsent.retries,
    fun hq => hrepeatable (hsent.repeatable hq) (hlist hq), hsent.wires⟩, hcases⟩

theorem sendTrackedTCP_sends {payload : Bytes} {flags : Flags} {sequence : Option Seq}
    {advance : Bool}
    (hplain : c.send.retransmission.Repeatable cfg → Plain cfg payload flags)
    (h : c.sendTrackedTCP cfg payload flags sequence advance = .ok c') : Sends cfg 0 c c' := by
  obtain ⟨c₁, hsent, hok | ⟨fault, herror⟩⟩ := sendTrackedTCP_cases c hplain sequence advance
  · obtain rfl : c₁ = c' := Except.ok.inj (hok.symm.trans h)
    exact hsent
  · rw [herror] at h
    cases h

/-- A control segment with a window the connection computes itself. -/
theorem plain_control (cfg : Settings) {flags : Flags}
    (hwindow : ∀ windowSize, flags.windowSize = some windowSize →
      windowSize ≤ max 0xffff cfg.tcpWindowSize) : Plain cfg [] flags := ⟨hwindow, fun _ => rfl⟩

theorem plain_unmarked (cfg : Settings) (payload : Bytes) {flags : Flags}
    (hwindow : flags.windowSize = none) (hsyn : flags.syn = false) : Plain cfg payload flags where
  window windowSize hw := by
    rw [hwindow] at hw
    cases hw
  syn hs := by
    rw [hsyn] at hs
    cases hs

theorem sendTCPAck_sends (cfg : Settings) (c : Conn) : Sends cfg 0 c (c.sendTCPAck cfg) := by
  have hcleared : Sends cfg 0 c c.clearDelayedTCPAck := .of_eq rfl rfl rfl id rfl
  refine hcleared.andThen (sendTCP_sends cfg c.clearDelayedTCPAck (fun _ => ?_) none true).1
  refine plain_control cfg fun windowSize hw => ?_
  rw [← Option.some.inj hw]
  exact (tcpReceiveWindow_le cfg c.clearDelayedTCPAck).trans (Nat.le_max_left _ _)

theorem scheduleTCPAck_sends (cfg : Settings) (c : Conn) (segments : Nat) (immediate : Bool) :
    Sends cfg 0 c (c.scheduleTCPAck cfg segments immediate) := by
  unfold scheduleTCPAck
  dsimp only
  have hcounted : Sends cfg 0 c { c with recv := { c.recv with
      receiveAckPendingSegments := c.recv.receiveAckPendingSegments + segments } } :=
    .of_eq rfl rfl rfl id rfl
  split
  · exact hcounted.andThen (sendTCPAck_sends cfg _)
  · exact .of_eq rfl rfl rfl id rfl

theorem fireAckTimer_sends (cfg : Settings) (c : Conn) : Sends cfg 0 c (c.fireAckTimer cfg) := by
  have hfired : Sends cfg 0 c { c with recv := { c.recv with receiveAckTimer := false } } :=
    .of_eq rfl rfl rfl id rfl
  unfold fireAckTimer
  dsimp only
  split
  · exact hfired.andThen (sendTCPAck_sends cfg _)
  · exact hfired

theorem onTCPReceiveDrain_sends (cfg : Settings) (c : Conn) :
    Sends cfg 0 c (c.onTCPReceiveDrain cfg) := by
  have hrelieved : Sends cfg 0 c
      { c with recv := { c.recv with receiveBackpressured := false } } :=
    .of_eq rfl rfl rfl id rfl
  unfold onTCPReceiveDrain
  split
  · exact .refl c
  · exact hrelieved.andThen (scheduleTCPAck_sends cfg _ 0 true)

/-- The reset both ways of aborting may send. -/
theorem reset_sends (cfg : Settings) (c : Conn) (sendReset : Bool) : Sends cfg 0 c
    (if sendReset = true then (c.sendTCP cfg [] { rst := true, ack := true } none true).1
      else c) := by
  split
  · exact (sendTCP_sends cfg c (fun _ => plain_unmarked cfg [] rfl rfl) none true).1
  · exact .refl c

/-- Aborting an outbound connection sends a reset at most. -/
theorem abortTCPConnection_sends (cfg : Settings) (turn : Turn) (c : Conn) (sendReset : Bool) :
    Sends cfg 0 c (c.abortTCPConnection cfg turn sendReset) := by
  unfold abortTCPConnection
  split
  · exact .refl c
  · have hclosed : Sends cfg 0 c (({ c with
        state := .closed
        registered := false
        send := { c.send with
          transportWaiting := false
          pacer := c.send.pacer.close
          retransmission := c.send.retransmission.close } } : Conn).clearDelayedTCPAck) :=
      .of_eq rfl rfl rfl RetransmissionQueue.Repeatable.close rfl
    have hsent := hclosed.andThen (reset_sends cfg _ (sendReset && turn.wsOpen))
    exact hsent.andThen (.of_eq rfl rfl rfl id rfl)

theorem abortReverseConnection_sends (cfg : Settings) (turn : Turn) (c : Conn)
    (sendReset : Bool) : Sends cfg 0 c (c.abortReverseConnection cfg turn sendReset) := by
  unfold abortReverseConnection
  split
  · exact .refl c
  · exact (reset_sends cfg c (sendReset && turn.wsOpen)).andThen
      (.of_eq rfl rfl rfl RetransmissionQueue.Repeatable.close rfl)

theorem abort_sends (cfg : Settings) (turn : Turn) (c : Conn) (sendReset : Bool) :
    Sends cfg 0 c (c.abort cfg turn sendReset) := by
  unfold abort
  split
  · exact abortTCPConnection_sends cfg turn c sendReset
  · exact abortReverseConnection_sends cfg turn c sendReset

theorem shutDown_sends (cfg : Settings) (c : Conn) : Sends cfg 0 c c.shutDown :=
  .of_eq rfl rfl rfl RetransmissionQueue.Repeatable.close rfl

theorem finishTCPConnection_sends (cfg : Settings) (c : Conn) :
    Sends cfg 0 c c.finishTCPConnection := by
  unfold finishTCPConnection
  split
  · exact .refl c
  · exact (shutDown_sends cfg c).andThen (.of_eq rfl rfl rfl id rfl)

theorem finishReverseConnection_sends (cfg : Settings) (c : Conn) :
    Sends cfg 0 c c.finishReverseConnection := by
  unfold finishReverseConnection
  split
  · exact .refl c
  · exact (shutDown_sends cfg c).andThen (.of_eq rfl rfl rfl id rfl)

theorem onTCPCongestionLoss_sends (cfg : Settings) (c : Conn) (reason : Reason) :
    Sends cfg 0 c (c.onTCPCongestionLoss cfg reason) := by
  unfold onTCPCongestionLoss
  dsimp only
  split
  · exact .refl c
  · exact .of_eq rfl rfl rfl id rfl

theorem resend_sends {segment : Segment} (hplain : c.send.retransmission.Repeatable cfg →
    Plain cfg segment.payload segment.flags) : Sends cfg 0 c (c.resend cfg segment) :=
  (sendTCP_sends cfg c hplain (some segment.seq) false).1

theorem onRetransmit_sends {segment : Segment} (hplain : c.send.retransmission.Repeatable cfg →
    Plain cfg segment.payload segment.flags) (reason : Reason) :
    Sends cfg 0 c (c.onRetransmit cfg segment reason) := by
  unfold onRetransmit
  split
  · exact .withQueue RetransmissionQueue.Repeatable.close
  · dsimp only
    split
    · refine (onTCPCongestionLoss_sends cfg c reason).andThen (resend_sends fun hq => ?_)
      rw [onTCPCongestionLoss_queue] at hq
      exact hplain hq
    · exact resend_sends hplain

theorem armed_sends (cfg : Settings) (c : Conn) : Sends cfg 0 c c.armed :=
  .withQueue fun hq => hq.of_segments (RetransmissionQueue.armTimer_segments _)

theorem fastRetransmit_sends (cfg : Settings) (turn : Turn) (c : Conn) :
    Sends cfg 0 c (c.fastRetransmit cfg turn) := by
  obtain he | ⟨segment, hold, -, -, he⟩ := fastRetransmit_cases cfg turn c
  · rw [he]
    exact .refl c
  · rw [he]
    have hcleared : Sends cfg 0 c (c.withQueue { c.send.retransmission with
        currentRtoMs := c.send.retransmission.initialRtoMs }.clearTimer) :=
      .withQueue fun hq => hq.of_segments rfl
    refine (hcleared.andThen (onRetransmit_sends (fun hq => ?_) .fast)).andThen (armed_sends cfg _)
    exact RetransmissionQueue.Repeatable.oldest hq rfl hold

/-- Leaving persist mode may repeat a segment. -/
theorem setPersist_sends (cfg : Settings) (turn : Turn) (c : Conn) (enabled : Bool) :
    Sends cfg 0 c (c.setPersist cfg turn enabled) := by
  have hswitched : Sends cfg 0 c
      (c.withQueue (c.send.retransmission.switchPersist enabled)) :=
    .withQueue fun hq => hq.of_segments rfl
  obtain ⟨-, he⟩ | ⟨-, -, -, he⟩ | ⟨segment, -, hold, -, -, he⟩ :=
    setPersist_cases cfg turn c enabled
  · rw [he]
    exact .refl c
  · rw [he]
    exact hswitched.andThen (armed_sends cfg _)
  · rw [he]
    refine (hswitched.andThen (onRetransmit_sends (fun hq => ?_) .windowOpen)).andThen
      (armed_sends cfg _)
    exact RetransmissionQueue.Repeatable.oldest hq rfl hold

theorem sendFin_cases (c : Conn) : ∃ c', Sends cfg 0 c c' ∧
    (c.sendFin cfg = .ok c' ∨ ∃ fault, c.sendFin cfg = .error ⟨fault, c'⟩) := by
  have hmarked : Sends cfg 0 c c.markFin := .of_eq rfl rfl rfl id rfl
  obtain ⟨c', hsent, hcases⟩ := @sendTrackedTCP_cases cfg []
    { fin := true, ack := true } c.markFin (fun _ => plain_unmarked cfg [] rfl rfl) none true
  exact ⟨c', hmarked.andThen hsent, hcases⟩

/-- A probe of any kind: a byte of a segment, a new byte, or a FIN. -/
theorem onPersistProbe_sends (cfg : Settings) (turn : Turn) (c : Conn)
    (segment : Option Segment) : Sends cfg 0 c (c.onPersistProbe cfg turn segment).1 := by
  unfold onPersistProbe
  split
  · exact .withQueue RetransmissionQueue.Repeatable.close
  split
  · exact .refl c
  split
  · exact (sendTCP_sends cfg c (fun _ => plain_unmarked cfg _ rfl rfl) _ false).1
  split
  · split
    · exact .of_eq rfl rfl rfl id rfl
    · rename_i byte queue htake
      have htaken : Sends cfg 0 c (c.withSendQueue queue) := .of_eq rfl rfl rfl id rfl
      obtain ⟨c', hsent, hok | ⟨fault, herror⟩⟩ := @sendTrackedTCP_cases cfg byte
        { ack := true } (c.withSendQueue queue)
        (fun _ => plain_unmarked cfg byte rfl rfl) none true
      · rw [hok]
        exact (htaken.andThen hsent).andThen (.of_eq rfl rfl rfl id rfl)
      · rw [herror]
        exact htaken.andThen hsent
  split
  · obtain ⟨c', hsent, hok | ⟨fault, herror⟩⟩ := @sendFin_cases cfg c
    · rw [hok]
      exact hsent
    · rw [herror]
      exact hsent
  · exact .refl c

theorem giveUp_sends (cfg : Settings) (turn : Turn) (c : Conn) :
    Sends cfg 0 c (c.giveUp cfg turn) := by
  have hexhausted : Sends cfg 0 c (c.withQueue
      { c.send.retransmission with exhausted := true }.clearTimer) :=
    .withQueue fun hq => hq.of_segments rfl
  exact hexhausted.andThen (abort_sends cfg turn _ true)

/-- A probe of the timer, with what the queue makes of its result. -/
theorem probe_sends (cfg : Settings) (turn : Turn) (c : Conn) :
    Sends cfg 0 c (c.probe cfg turn) := by
  have hcounted : Sends cfg 0 c (c.withQueue c.send.retransmission.countTimeout) :=
    .withQueue fun hq => hq.of_segments rfl
  have hprobed := hcounted.andThen (onPersistProbe_sends cfg turn
    (c.withQueue c.send.retransmission.countTimeout) c.send.retransmission.oldest)
  have harmed : ∀ q : RetransmissionQueue, q.Repeatable cfg →
      (q.clearTimer.backOff).Repeatable cfg := fun q hq => by
    refine hq.of_segments ?_
    simp [RetransmissionQueue.backOff, RetransmissionQueue.clearTimer]
  unfold probe
  split
  · rename_i c₁ heq
    rw [heq] at hprobed
    exact hprobed.andThen (.withQueue (harmed _))
  · rename_i c₁ heq
    rw [heq] at hprobed
    exact hprobed.andThen (.withQueue fun hq => harmed _ (hq.of_segments rfl))
  · rename_i c₁ heq
    rw [heq] at hprobed
    exact hprobed.andThen (giveUp_sends cfg turn c₁)

/-- A retransmission after a timeout. -/
theorem retransmitOldest_sends (cfg : Settings) (c : Conn) {segment : Segment}
    (hold : c.send.retransmission.oldest = some segment) :
    Sends cfg 0 c (c.retransmitOldest cfg segment) := by
  have hcounted : Sends cfg 0 c (c.withQueue { c.send.retransmission.countTimeout with
      segments := RetransmissionQueue.countRetransmission c.send.retransmission.segments }) :=
    .withQueue RetransmissionQueue.Repeatable.countRetransmission
  obtain ⟨first, rest, hcons⟩ : ∃ first rest, c.send.retransmission.segments = first :: rest := by
    cases hseg : c.send.retransmission.segments with
    | nil => simp [RetransmissionQueue.oldest, hseg] at hold
    | cons first rest => exact ⟨first, rest, rfl⟩
  obtain rfl : first = segment := by simpa [RetransmissionQueue.oldest, hcons] using hold
  have hsent := hcounted.andThen (@onRetransmit_sends cfg _
    { first with retransmissions := first.retransmissions + 1 }
    (fun hq => hq _ (by
      simp only [withQueue_retransmission, hcons, RetransmissionQueue.countRetransmission]
      exact List.mem_cons_self)) .timeout)
  refine hsent.andThen (.withQueue fun hq => hq.of_segments ?_)
  simp [RetransmissionQueue.backOff]

/-- The callback of the retransmission timer, for any generation. -/
theorem fireRetransmissionTimer_sends (cfg : Settings) (turn : Turn) (c : Conn)
    (generation : Nat) : Sends cfg 0 c (c.fireRetransmissionTimer cfg turn generation) := by
  by_cases hstale : generation ≠ c.send.retransmission.timerGeneration ∨
      c.send.retransmission.closed = true ∨ c.send.retransmission.exhausted = true
  · rw [fireRetransmissionTimer_superseded cfg turn hstale]
    exact .withQueue fun hq => hq.of_segments rfl
  · simp only [ne_eq, not_or, Decidable.not_not, Bool.not_eq_true] at hstale
    obtain ⟨rfl, hopen, hlive⟩ := hstale
    rw [fireRetransmissionTimer_live cfg turn hopen hlive]
    have hstarted : Sends cfg 0 c (c.timerStarted c.send.retransmission.timerGeneration) :=
      .withQueue fun hq => hq.of_segments rfl
    refine hstarted.andThen ?_
    generalize c.timerStarted c.send.retransmission.timerGeneration = c₁
    unfold onTimeout
    dsimp only
    split
    · split
      · exact giveUp_sends cfg turn c₁
      · exact probe_sends cfg turn c₁
    split
    · exact .refl c₁
    · rename_i segment hold
      split
      · exact giveUp_sends cfg turn c₁
      · exact retransmitOldest_sends cfg c₁ hold

theorem isTCPCongestionRecoveryActive_sends (cfg : Settings) (c : Conn) :
    Sends cfg 0 c c.isTCPCongestionRecoveryActive.1 := by
  obtain ⟨recoveryUntil, he⟩ := isTCPCongestionRecoveryActive_eq c
  rw [he]
  exact .of_eq rfl rfl rfl id rfl

/-- The FIN, if it is due. -/
theorem maybeFin_sends (h : c.maybeFin cfg = .ok c') : Sends cfg 0 c c' := by
  rw [maybeFin_eq] at h
  unfold maybeSendFin at h
  split at h
  · cases h
    exact .refl c
  · have hactive := isTCPCongestionRecoveryActive_sends cfg c
    dsimp only at h
    split at h
    · cases h
      exact hactive
    · obtain ⟨c₁, hsent, hok | ⟨fault, herror⟩⟩ :=
        @sendFin_cases cfg c.isTCPCongestionRecoveryActive.1
      · obtain rfl : c₁ = c' := Except.ok.inj (hok.symm.trans h)
        exact hactive.andThen hsent
      · rw [herror] at h
        cases h

theorem sendQueued_sends {toSend : Nat} (h : c.sendQueued cfg toSend = .ok c') :
    Sends cfg 0 c c' := by
  unfold sendQueued at h
  split at h
  · cases h
  rename_i chunk queue htake
  split at h
  · cases h
  rename_i c₁ hsend
  cases h
  have htaken : Sends cfg 0 c (c.withSendQueue queue) := .of_eq rfl rfl rfl id rfl
  have hsent := htaken.andThen
    (sendTrackedTCP_sends (fun _ => plain_unmarked cfg chunk rfl rfl) hsend)
  exact hsent.andThen (.of_eq rfl rfl rfl id rfl)

/-- The limiter refuses the request of an iteration. A reverse connection does
not ask. -/
def limiterRefuses (turn : Turn) (c : Conn) (rateLimited : Bool) (bytes : Nat) : Bool :=
  rateLimited && !(c.rateLimiter.tryConsume (turn.now c.sent.length) bytes).2

/-- An iteration from the limiter on, with its refusal. -/
theorem sendStep_sends {rateLimited goesOn : Bool} {cooperativeSegments available toSend : Nat}
    (h : c.sendStep cfg turn rateLimited cooperativeSegments available toSend =
      .ok (c', goesOn)) :
    Sends cfg (c.limiterRefuses turn rateLimited toSend).toNat c c' := by
  unfold sendStep at h
  have hadmitted : (c.tryConsume turn rateLimited toSend).2 =
      !c.limiterRefuses turn rateLimited toSend := by
    unfold tryConsume limiterRefuses
    cases rateLimited
    · rfl
    · simp
  obtain ⟨rateLimiter, hlimiter⟩ := tryConsume_eq turn c rateLimited toSend
  generalize c.tryConsume turn rateLimited toSend = admission at h hlimiter hadmitted
  obtain ⟨c₁, admitted⟩ := admission
  obtain rfl : c₁ = _ := hlimiter
  generalize c.limiterRefuses turn rateLimited toSend = refused at hadmitted ⊢
  obtain rfl : admitted = !refused := hadmitted
  cases refused with
  | true =>
      cases h
      exact .of_eq rfl rfl rfl id rfl
  | false =>
      simp only [Bool.not_false, Bool.not_true, Bool.false_eq_true, if_false] at h
      split at h
      · cases h
      rename_i c₂ hsend
      have hlent : Sends cfg 0 c { c with rateLimiter } := .of_eq rfl rfl rfl id rfl
      have hpaced : Sends cfg 0 c (c₂.notePacedTCPSegment turn).1 :=
        (hlent.andThen (sendQueued_sends hsend)).andThen (.of_eq rfl rfl rfl id rfl)
      split at h
      · cases h
        exact hpaced
      split at h
      · generalize hstop : (c₂.notePacedTCPSegment turn).1.stopSending.maybeFin cfg = outcome at h
        cases outcome with
        | error thrown => cases h
        | ok c₃ =>
            cases h
            have hstopped : Sends cfg 0 c (c₂.notePacedTCPSegment turn).1.stopSending :=
              hpaced.andThen (.of_eq rfl rfl rfl id rfl)
            exact hstopped.andThen (maybeFin_sends hstop)
      split at h
      · cases h
        exact hpaced.andThen (.of_eq rfl rfl rfl id rfl)
      · cases h
        exact hpaced

/-- The iteration comes as far as the limiter, which refuses. -/
def stepRefused (cfg : Settings) (turn : Turn) (c : Conn) (rateLimited : Bool) : Bool :=
  c.registered && !c.send.sendQueue.isEmpty &&
    decide (turn.bufferedAmount c.sent.length ≤ 32768) && decide (0 < c.request cfg) &&
      c.limiterRefuses turn rateLimited (c.request cfg)

/-- An iteration of the send loop. It is refused at most once. -/
theorem drainStep_sends {rateLimited goesOn : Bool} {cooperativeSegments : Nat}
    (h : c.drainStep cfg turn rateLimited cooperativeSegments = .ok (c', goesOn)) :
    Sends cfg (c.stepRefused cfg turn rateLimited).toNat c c' := by
  have hstopped : Sends cfg 0 c c.stopSending := .of_eq rfl rfl rfl id rfl
  by_cases hreg : c.registered = true
  swap
  · have hidle : c.stepRefused cfg turn rateLimited = false := by simp [stepRefused, hreg]
    unfold drainStep at h
    rw [if_pos (by simp [hreg])] at h
    cases h
    rw [hidle]
    exact hstopped
  by_cases hqueue : c.send.sendQueue = []
  · have hidle : c.stepRefused cfg turn rateLimited = false := by simp [stepRefused, hqueue]
    unfold drainStep at h
    rw [if_neg (by simp [hreg]), if_pos hqueue] at h
    rw [hidle]
    generalize hstop : c.stopSending.maybeFin cfg = outcome at h
    cases outcome with
    | error thrown => cases h
    | ok c₁ =>
        cases h
        exact hstopped.andThen (maybeFin_sends hstop)
  by_cases hws : turn.bufferedAmount c.sent.length > 32768
  · have hidle : c.stepRefused cfg turn rateLimited = false := by
      simp [stepRefused, Nat.not_le.mpr hws]
    unfold drainStep at h
    rw [if_neg (by simp [hreg]), if_neg hqueue, if_pos hws] at h
    cases h
    rw [hidle]
    exact .of_eq rfl rfl rfl id rfl
  have hactive := isTCPCongestionRecoveryActive_sends cfg c
  by_cases hroom : 0 < c.request cfg
  · rw [drainStep_eq cfg turn hreg hqueue (Nat.not_lt.mp hws) hroom] at h
    have hsame : c.stepRefused cfg turn rateLimited =
        c.isTCPCongestionRecoveryActive.1.limiterRefuses turn rateLimited (c.request cfg) := by
      obtain ⟨recoveryUntil, he⟩ := isTCPCongestionRecoveryActive_eq c
      rw [he]
      simp [stepRefused, limiterRefuses, hreg, hqueue, Nat.not_lt.mp hws, hroom]
    rw [hsame]
    exact hactive.after (sendStep_sends h)
  · have hidle : c.stepRefused cfg turn rateLimited = false := by simp [stepRefused, hroom]
    unfold drainStep at h
    rw [if_neg (by simp [hreg]), if_neg hqueue, if_neg hws] at h
    have hzero : min (c.isTCPCongestionRecoveryActive.1.tcpMss cfg)
        (min c.isTCPCongestionRecoveryActive.1.send.sendQueueBytes
          (if c.isTCPCongestionRecoveryActive.2 = true then 0 else
            c.tcpSendLimit cfg - c.send.retransmission.payloadBytesInFlight)) = 0 := by
      obtain ⟨recoveryUntil, he⟩ := isTCPCongestionRecoveryActive_eq c
      rw [he, isTCPCongestionRecoveryActive_snd]
      exact Nat.eq_zero_of_not_pos hroom
    dsimp only at h
    rw [if_pos hzero] at h
    cases h
    rw [hidle]
    exact hactive.andThen (.of_eq rfl rfl rfl id rfl)

/-- A refusal ends the loop. -/
theorem drainStep_refused {rateLimited goesOn : Bool} {cooperativeSegments : Nat}
    (hrefused : c.stepRefused cfg turn rateLimited = true)
    (h : c.drainStep cfg turn rateLimited cooperativeSegments = .ok (c', goesOn)) :
    goesOn = false := by
  simp only [stepRefused, limiterRefuses, Bool.and_eq_true, Bool.not_eq_true',
    decide_eq_true_eq] at hrefused
  obtain ⟨⟨⟨⟨hreg, hqueue⟩, hws⟩, hroom⟩, hlimited, hno⟩ := hrefused
  subst hlimited
  rw [drainStep_eq cfg turn hreg (by simpa using hqueue) hws hroom] at h
  obtain ⟨recoveryUntil, he⟩ := isTCPCongestionRecoveryActive_eq c
  rw [he] at h
  obtain ⟨c₁, hok, -⟩ := @sendStep_refused cfg turn
    { c with send := { c.send with congestionRecoveryUntil := recoveryUntil } }
    cooperativeSegments (c.available cfg) _ hno
  rw [hok] at h
  cases h
  rfl

/-- The loop ends because the limiter refuses, after whatever it has been
granted before. -/
def loopRefused (cfg : Settings) (turn : Turn) (rateLimited : Bool) : Nat → Nat → Conn → Bool
  | 0, _, _ => false
  | fuel + 1, cooperativeSegments, c =>
    c.stepRefused cfg turn rateLimited ||
      match c.drainStep cfg turn rateLimited cooperativeSegments with
      | .ok (c, true) => loopRefused cfg turn rateLimited fuel (cooperativeSegments + 1) c
      | _ => false

/-- The send loop, by induction on the fuel. It ends with the first refusal, so
there is one at most. -/
theorem drainLoop_sends {rateLimited : Bool} {fuel cooperativeSegments : Nat}
    (h : drainLoop cfg turn rateLimited fuel cooperativeSegments c = .ok c') :
    Sends cfg (loopRefused cfg turn rateLimited fuel cooperativeSegments c).toNat c c' := by
  induction fuel generalizing c cooperativeSegments with
  | zero => cases h
  | succ fuel ih =>
      unfold drainLoop at h
      unfold loopRefused
      cases hstep : c.drainStep cfg turn rateLimited cooperativeSegments with
      | error thrown =>
          rw [hstep] at h
          cases h
      | ok result =>
          obtain ⟨c₁, goesOn⟩ := result
          have hfirst := drainStep_sends hstep
          rw [hstep] at h
          cases goesOn with
          | false =>
              cases h
              dsimp only
              rw [Bool.or_false]
              exact hfirst
          | true =>
              have hgranted : c.stepRefused cfg turn rateLimited = false := by
                rw [← Bool.not_eq_true]
                exact fun hrefused => Bool.noConfusion (drainStep_refused hrefused hstep)
              rw [hgranted] at hfirst
              dsimp only
              rw [hgranted, Bool.false_or]
              exact hfirst.after (ih h)

/-- The limiter refuses somewhere in `drainTCPToVM`, at most once. -/
def drainRefused (cfg : Settings) (turn : Turn) (c : Conn) (rateLimited : Bool) : Bool :=
  let c := { c with send := { c.send with sending := true } }
  let c := c.setPersist cfg turn c.wantsPersist
  loopRefused cfg turn rateLimited (c.send.sendQueueBytes + 1) 0 c

theorem drainTCPToVM_sends {rateLimited : Bool}
    (h : c.drainTCPToVM cfg turn rateLimited = .ok c') :
    Sends cfg (c.drainRefused cfg turn rateLimited).toNat c c' := by
  unfold drainTCPToVM at h
  unfold drainRefused
  dsimp only at h ⊢
  have hmarked : Sends cfg 0 c { c with send := { c.send with sending := true } } :=
    .of_eq rfl rfl rfl id rfl
  exact (hmarked.andThen (setPersist_sends cfg turn _ _)).after (drainLoop_sends h)

/-- Reverse connections are not limited. -/
theorem loopRefused_unlimited (cfg : Settings) (turn : Turn) (fuel cooperativeSegments : Nat)
    (c : Conn) : loopRefused cfg turn false fuel cooperativeSegments c = false := by
  have hstep : ∀ c : Conn, c.stepRefused cfg turn false = false := fun c => by
    simp [stepRefused, limiterRefuses]
  induction fuel generalizing c cooperativeSegments with
  | zero => rfl
  | succ fuel ih =>
      unfold loopRefused
      rw [hstep, Bool.false_or]
      split
      · exact ih _ _
      · rfl

/-- The limiter refuses in this call of `trySendToVM`, if it runs the loop at
all. -/
def sendRefused (cfg : Settings) (turn : Turn) (c : Conn) : Bool :=
  !(!c.registered || c.send.sending || c.send.pacer.blocked || decide (c.state = .synSent)) &&
    c.drainRefused cfg turn true

theorem trySendToVM_sends (h : c.trySendToVM cfg turn = .ok c') :
    Sends cfg (c.sendRefused cfg turn).toNat c c' := by
  unfold trySendToVM at h
  unfold sendRefused
  split at h
  · rename_i hidle
    cases h
    rw [hidle]
    exact .refl c
  · rename_i hruns
    rw [Bool.not_eq_true] at hruns
    rw [hruns]
    exact drainTCPToVM_sends h

theorem trySendReverseToVM_sends (h : c.trySendReverseToVM cfg turn = .ok c') :
    Sends cfg 0 c c' := by
  unfold trySendReverseToVM at h
  split at h
  · cases h
    exact .refl c
  · have hsent := drainTCPToVM_sends h
    have hfree : c.drainRefused cfg turn false = false := loopRefused_unlimited cfg turn _ _ _
    rw [hfree] at hsent
    exact hsent

theorem trySend_sends (h : c.trySend cfg turn = .ok c') : ∃ refusals, Sends cfg refusals c c' := by
  unfold trySend at h
  cases hdir : c.direction with
  | outbound =>
      rw [hdir] at h
      exact ⟨_, trySendToVM_sends h⟩
  | reverse =>
      rw [hdir] at h
      exact ⟨_, trySendReverseToVM_sends h⟩

theorem acknowledge_sends {ackNum : Seq} {result : AckResult}
    (h : c.acknowledge ackNum = .ok (c', result)) : Sends cfg 0 c c' := by
  unfold acknowledge at h
  split at h
  · cases h
  · rename_i q acked hack
    cases h
    exact .of_eq rfl rfl rfl (fun hq => hq.acknowledge hack) rfl

theorem updateTCPWindow_sends (cfg : Settings) (c : Conn) (sequence ack : Seq) (window : Nat) :
    Sends cfg 0 c (c.updateTCPWindow sequence ack window).1 := by
  unfold updateTCPWindow
  split
  · exact .refl c
  · exact .of_eq rfl rfl rfl id rfl

/-- Congestion control at an acknowledgement, which may repeat the recovery
head. -/
theorem onTCPCongestionAck_sends (cfg : Settings) (c : Conn) (ackedDataBytes : Nat)
    (ackNumber : Seq) : Sends cfg 0 c (c.onTCPCongestionAck cfg ackedDataBytes ackNumber) := by
  unfold onTCPCongestionAck
  split
  · exact .refl c
  split
  · split
    · exact .of_eq rfl rfl rfl id rfl
    · unfold retransmitTCPRecoveryHead
      split
      · exact .refl c
      · rename_i segment hold
        have hnoted : Sends cfg 0 c { c with send := { c.send with
            fastRetransmitAck := some c.send.retransmission.sndUna } } :=
          .of_eq rfl rfl rfl id rfl
        refine hnoted.andThen (resend_sends fun hq => ?_)
        exact RetransmissionQueue.Repeatable.oldest hq rfl hold
  · exact .of_eq rfl rfl rfl id rfl

theorem noteAdvancedAck_sends (cfg : Settings) (c : Conn) (ackedDataBytes : Nat) (ackNum : Seq) :
    Sends cfg 0 c (c.noteAdvancedAck cfg ackedDataBytes ackNum) := by
  have hcleared : Sends cfg 0 c { c with send := { c.send with
      dupAckCount := 0
      fastRetransmitAck := none
      vmLastAck := c.send.retransmission.sndUna } } := .of_eq rfl rfl rfl id rfl
  exact hcleared.andThen (onTCPCongestionAck_sends cfg _ ackedDataBytes ackNum)

theorem noteDuplicateAck_sends (cfg : Settings) (turn : Turn) (c : Conn) (ackNum : Seq) :
    Sends cfg 0 c (c.noteDuplicateAck cfg turn ackNum) := by
  have hcount : ∀ (c : Conn) (dupAckCount : Nat),
      Sends cfg 0 c { c with send := { c.send with dupAckCount } } :=
    fun _ _ => .of_eq rfl rfl rfl id rfl
  unfold noteDuplicateAck
  dsimp only
  split
  · split
    · exact ((hcount c _).andThen (fastRetransmit_sends cfg turn _)).andThen (hcount _ 0)
    · exact (hcount c _).andThen (hcount _ 0)
  · exact hcount c _

/-- The acknowledgement part of both handlers. -/
theorem noteAck_sends {seg : VMSegment} {status : AckStatus} {windowChanged : Bool}
    (h : c.noteAck cfg turn seg = .ok (c', status, windowChanged)) : Sends cfg 0 c c' := by
  unfold noteAck at h
  split at h
  · cases h
  rename_i c₁ result hack
  have hacked : Sends cfg 0 c c₁ := acknowledge_sends hack
  split at h
  · cases h
    exact hacked
  · have hupdated := hacked.andThen
      (updateTCPWindow_sends cfg c₁ seg.seqNum seg.ackNum seg.window.toNat)
    cases h
    dsimp only
    split
    · exact hupdated.andThen (noteAdvancedAck_sends cfg _ _ _)
    split
    · exact hupdated.andThen (noteDuplicateAck_sends cfg turn _ _)
    · exact hupdated

/-- `handleTCP` goes on from `noteAck`, where the segment has an acknowledgement
and is no reset. -/
theorem handleTCP_noteAck (cfg : Settings) (turn : Turn) (c : Conn) {seg : VMSegment}
    (hrst : seg.rst = false) (hack : seg.ack = true) :
    c.handleTCP cfg turn seg =
      match c.noteAck cfg turn seg with
      | .error thrown => .error thrown
      | .ok (c, status, windowChanged) =>
        if status = .future ∨ status = .stale then .ok c
        else c.handleTCPState cfg turn seg (some status) windowChanged := by
  unfold handleTCP noteAck
  rw [if_neg (by simp [hack]), if_neg (by simp [hrst]), if_neg (by simp [hack])]
  cases c.acknowledge seg.ackNum with
  | error thrown => rfl
  | ok result =>
      dsimp only
      by_cases hignored : result.2.status = .future ∨ result.2.status = .stale
      · rw [if_pos hignored, if_pos hignored]
        dsimp only
        rw [if_pos hignored]
      · rw [if_neg hignored, if_neg hignored]
        dsimp only
        rw [if_neg hignored]

theorem resetDup_sends (cfg : Settings) (c : Conn) (windowChanged : Bool) :
    Sends cfg 0 c (c.resetDup windowChanged) := by
  unfold resetDup
  split
  · exact .of_eq rfl rfl rfl id rfl
  · exact .refl c

theorem handleTCPPayload_sends (cfg : Settings) (turn : Turn) (c : Conn) (seg : VMSegment) :
    ∃ recv, Sends cfg 0 { c with recv } (c.handleTCPPayload cfg turn seg).1 := by
  unfold handleTCPPayload
  dsimp only
  split
  · exact ⟨c.recv, .refl c⟩
  split
  · exact ⟨_, scheduleTCPAck_sends cfg _ _ false⟩
  split
  · split
    · exact ⟨c.recv, scheduleTCPAck_sends cfg c 0 true⟩
    · exact ⟨_, scheduleTCPAck_sends cfg _ _ false⟩
  · exact ⟨_, scheduleTCPAck_sends cfg _ 0 true⟩

/-- The FIN of the VM, up to the end of the connection. -/
theorem closed_sends (cfg : Settings) (c : Conn) :
    Sends cfg 0 { c with recv := passFin c.recv } (c.closed cfg) := by
  have hended : Sends cfg 0 { c with recv := passFin c.recv }
      { c with state := .closing, recv := endSink (passFin c.recv) } := .of_eq rfl rfl rfl id rfl
  exact hended.andThen (scheduleTCPAck_sends cfg _ 0 true)

theorem handleTCPFin_sends (cfg : Settings) (c : Conn) (seg : VMSegment) :
    ∃ recv, Sends cfg 0 { c with recv } (c.handleTCPFin cfg seg) := by
  rw [handleTCPFin_eq]
  split
  · exact ⟨c.recv, .refl c⟩
  split
  · exact ⟨c.recv, scheduleTCPAck_sends cfg c 0 true⟩
  split
  · exact ⟨_, (closed_sends cfg c).andThen (finishTCPConnection_sends cfg _)⟩
  · exact ⟨_, closed_sends cfg c⟩

theorem handleReverseTCPFin_sends (cfg : Settings) (c : Conn) (seg : VMSegment) :
    ∃ recv, Sends cfg 0 { c with recv } (c.handleReverseTCPFin cfg seg) := by
  rw [handleReverseTCPFin_eq]
  split
  · exact ⟨c.recv, .refl c⟩
  split
  · exact ⟨c.recv, scheduleTCPAck_sends cfg c 0 true⟩
  split
  · exact ⟨_, (closed_sends cfg c).andThen (finishReverseConnection_sends cfg _)⟩
  · exact ⟨_, closed_sends cfg c⟩

/-- What a callback has changed before it comes to a function that sends: no
traffic yet. -/
def SameTraffic (c c₀ : Conn) : Prop :=
  (c₀.direction, c₀.tx, c₀.sent, c₀.send.retransmission) =
    (c.direction, c.tx, c.sent, c.send.retransmission) ∧ c₀.recv.vmSeq = c.recv.vmSeq

theorem bumpActivity_same (c : Conn) : SameTraffic c c.bumpActivity := by
  unfold bumpActivity
  split <;> exact ⟨rfl, rfl⟩

/-- Apart from the segments of the VM, every callback comes down to functions
that send. -/
theorem handle_sends {event : Event} (hother : ∀ seg, event ≠ .segment seg)
    (h : c.handle cfg turn event = .ok c') :
    ∃ refusals c₀, SameTraffic c c₀ ∧ Sends cfg refusals c₀ c' := by
  have hdrain : ∀ c₀ : Conn, SameTraffic c c₀ → c₀.trySend cfg turn = .ok c' →
      ∃ refusals c₀, SameTraffic c c₀ ∧ Sends cfg refusals c₀ c' := fun c₀ hsame hsend => by
    obtain ⟨refusals, hsent⟩ := trySend_sends hsend
    exact ⟨refusals, c₀, hsame, hsent⟩
  cases event with
  | segment seg => exact absurd rfl (hother seg)
  | sourceData data =>
      refine hdrain _ ?_ h
      exact bumpActivity_same c
  | sourceEnd =>
      unfold handle onSourceEnd at h
      dsimp only at h
      split at h
      · cases h
        exact ⟨0, _, by exact ⟨rfl, rfl⟩, .refl _⟩
      · refine hdrain _ ?_ h
        exact bumpActivity_same { c with send := { c.send with sourceEnded := true } }
  | endpointError =>
      cases h
      exact ⟨0, c, ⟨rfl, rfl⟩, abort_sends cfg turn c true⟩
  | sinkDrain =>
      cases h
      exact ⟨0, c, ⟨rfl, rfl⟩, onTCPReceiveDrain_sends cfg c⟩
  | retransmissionTimer generation =>
      cases h
      exact ⟨0, c, ⟨rfl, rfl⟩, fireRetransmissionTimer_sends cfg turn c generation⟩
  | ackTimer =>
      cases h
      exact ⟨0, c, ⟨rfl, rfl⟩, fireAckTimer_sends cfg c⟩
  | idleTimer =>
      cases h
      exact ⟨0, _, by exact ⟨rfl, rfl⟩, abort_sends cfg turn { c with idleTimer := false } true⟩
  | sinkEnd | removalTimer | transportFlush | otherTraffic =>
      cases h
      exact ⟨0, _, by exact ⟨rfl, rfl⟩, .refl _⟩
  | localClose | pacerTimer | rateRetry | immediate | staleResume =>
      refine hdrain _ ?_ h
      exact ⟨rfl, rfl⟩

end Conn

end RootlessRelay
