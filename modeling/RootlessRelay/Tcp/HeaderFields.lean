import RootlessRelay.Tcp.Segmentation
import RootlessRelay.Tcp.Sends

/-!
# The fields of outgoing headers

The window of a segment is the receive window, which is clamped to 16 bits, or
the `windowSize` that was given with its flags. The SYN-ACK is given
`TCP_WINDOW_SIZE` as it is configured. A window that does not fit is an
exception in `sendTCP`, which leaves the connection of the SYN in the map, its
SYN-ACK neither sent nor tracked.

The bounds are carried by an invariant (`Tidy`) over what has been sent and what
may be sent again. They leave the configured window as the only field in doubt,
so that the whole question comes down to one opening; `emitOutbound` and
`emitReverse` are the two openings with their buffers, and they are compared
with the openings of the connection record.
-/

namespace RootlessRelay

namespace Conn

variable {cfg : Settings} {turn : Turn} {c c' c'' : Conn} {seg : VMSegment}

/-- What has been sent and what may be sent again keeps to the bounds of
`sendTCP`. -/
structure Tidy (cfg : Settings) (c : Conn) : Prop where
  repeatable : c.send.retransmission.Repeatable cfg
  sent : ∀ wire ∈ c.sent, wire.flow = c.tx ∧ wire.Bounded cfg

/-- Addresses and direction never change, and what is tidy stays so. -/
structure Keeps (cfg : Settings) (c c' : Conn) : Prop where
  direction : c'.direction = c.direction
  tx : c'.tx = c.tx
  tidy : c.Tidy cfg → c'.Tidy cfg

theorem Keeps.refl (c : Conn) : Keeps cfg c c := ⟨rfl, rfl, id⟩

theorem Keeps.trans (h : Keeps cfg c c') (h' : Keeps cfg c' c'') : Keeps cfg c c'' :=
  ⟨h'.direction.trans h.direction, h'.tx.trans h.tx, fun ht => h'.tidy (h.tidy ht)⟩

/-- A step that neither sends nor touches the queue. -/
theorem Keeps.of_eq (h : (c'.direction, c'.tx, c'.sent, c'.send.retransmission) =
    (c.direction, c.tx, c.sent, c.send.retransmission)) : Keeps cfg c c' := by
  obtain ⟨hdirection, htx, hsent, hqueue⟩ : c'.direction = c.direction ∧ c'.tx = c.tx ∧
      c'.sent = c.sent ∧ c'.send.retransmission = c.send.retransmission := by
    simpa using h
  refine ⟨hdirection, htx, fun ht => ⟨?_, ?_⟩⟩
  · rw [hqueue]
    exact ht.repeatable
  · rw [hsent, htx]
    exact ht.sent

/-- What came before sent nothing and left the queue as it was. -/
theorem Keeps.after {c₀ : Conn} (h : Keeps cfg c c')
    (hsame : (c.direction, c.tx, c.sent, c.send.retransmission) =
      (c₀.direction, c₀.tx, c₀.sent, c₀.send.retransmission)) : Keeps cfg c₀ c' :=
  (Keeps.of_eq hsame).trans h

theorem Sends.keeps {refusals : Nat} (h : Sends cfg refusals c c') : Keeps cfg c c' := by
  refine ⟨h.direction, h.tx, fun ht => ⟨h.repeatable ht.repeatable, ?_⟩⟩
  obtain ⟨wires, hsent, hwires⟩ := h.wires
  rw [hsent, h.tx]
  intro wire hmem
  rcases List.mem_append.mp hmem with hold | hnew
  · exact ht.sent wire hold
  · obtain ⟨hflow, -, hbounded⟩ := hwires wire hnew
    exact ⟨hflow, hbounded ht.repeatable⟩

theorem handleTCPData_keeps (cfg : Settings) (turn : Turn) (c : Conn) (seg : VMSegment) :
    Keeps cfg c (c.handleTCPData cfg turn seg) := by
  obtain ⟨recv, hpaid⟩ := handleTCPPayload_sends cfg turn c seg
  have hfirst : Keeps cfg c (c.handleTCPPayload cfg turn seg).1 := hpaid.keeps.after rfl
  unfold handleTCPData
  dsimp only
  split
  · exact hfirst
  · obtain ⟨recv, hfin⟩ := handleTCPFin_sends cfg (c.handleTCPPayload cfg turn seg).1 seg
    exact hfirst.trans (hfin.keeps.after rfl)

theorem handleReverseTCPData_keeps (cfg : Settings) (turn : Turn) (c : Conn) (seg : VMSegment) :
    Keeps cfg c (c.handleReverseTCPData cfg turn seg) := by
  obtain ⟨recv, hpaid⟩ := handleTCPPayload_sends cfg turn c seg
  have hfirst : Keeps cfg c (c.handleTCPPayload cfg turn seg).1 := hpaid.keeps.after rfl
  unfold handleReverseTCPData
  rw [handleReverseTCPPayload_eq]
  dsimp only
  split
  · exact hfirst
  · obtain ⟨recv, hfin⟩ := handleReverseTCPFin_sends cfg (c.handleTCPPayload cfg turn seg).1 seg
    exact hfirst.trans (hfin.keeps.after rfl)

/-- The established part of `handleTCP` keeps addresses and bounds. -/
theorem handleTCPEstablished_keeps {progress windowChanged : Bool}
    (h : c.handleTCPEstablished cfg turn seg progress windowChanged = .ok c') : Keeps cfg c c' := by
  unfold handleTCPEstablished at h
  split at h
  · cases h
    exact .refl c
  split at h
  · cases h
    exact (finishTCPConnection_sends cfg c).keeps
  cases progress with
  | false =>
      cases h
      exact handleTCPData_keeps cfg turn c seg
  | true =>
      rw [if_pos rfl] at h
      cases hsend : (c.resetDup windowChanged).trySendToVM cfg turn with
      | error thrown =>
          unfold resetDup at hsend
          rw [hsend] at h
          cases h
      | ok c₁ =>
          have hsent :=
            (resetDup_sends cfg c windowChanged).keeps.trans (trySendToVM_sends hsend).keeps
          unfold resetDup at hsend
          rw [hsend] at h
          cases h
          exact hsent.trans (handleTCPData_keeps cfg turn c₁ seg)

theorem handleTCPState_keeps {status : Option AckStatus} {windowChanged : Bool}
    (h : c.handleTCPState cfg turn seg status windowChanged = .ok c') : Keeps cfg c c' := by
  unfold handleTCPState at h
  dsimp only at h
  split at h
  · split at h
    · cases h
      exact .refl c
    · have hsent := (sendTCPAck_sends cfg { c with state := .established }).keeps
      exact (hsent.trans (handleTCPEstablished_keeps h)).after rfl
  · exact handleTCPEstablished_keeps h

/-- So does the whole handler. -/
theorem handleTCP_keeps (h : c.handleTCP cfg turn seg = .ok c') : Keeps cfg c c' := by
  by_cases hearly : seg.rst = true ∨ seg.ack = false
  · unfold handleTCP at h
    split at h
    · cases h
      split
      · exact (fastRetransmit_sends cfg turn c).keeps
      · exact .refl c
    split at h
    · cases h
      exact (abortTCPConnection_sends cfg turn c false).keeps
    · rename_i hrst
      rw [if_pos (by simpa [hrst] using hearly)] at h
      exact handleTCPState_keeps h
  · obtain ⟨hrst, hack⟩ := not_or.mp hearly
    rw [handleTCP_noteAck cfg turn c (by simpa using hrst) (by simpa using hack)] at h
    cases hnoted : c.noteAck cfg turn seg with
    | error thrown =>
        rw [hnoted] at h
        cases h
    | ok result =>
        obtain ⟨c₁, status, windowChanged⟩ := result
        rw [hnoted] at h
        have hsent := (noteAck_sends hnoted).keeps
        dsimp only at h
        split at h
        · cases h
          exact hsent
        · exact hsent.trans (handleTCPState_keeps h)

theorem handleReverseSynAck_keeps (h : c.handleReverseSynAck cfg turn seg = .ok c') :
    Keeps cfg c c' := by
  unfold handleReverseSynAck at h
  split at h
  · cases h
  · rename_i c₁ result hack
    have hacked : Keeps cfg c c₁ := (acknowledge_sends hack).keeps
    dsimp only at h
    split at h
    · cases h
      exact hacked
    · have hsent := (sendTCPAck_sends cfg _).keeps.trans (trySendReverseToVM_sends h).keeps
      exact hacked.trans (hsent.after rfl)

theorem trySendReverseToVM_keeps {done done' : Bool}
    (h : (c.trySendReverseToVM cfg turn).map (fun c => (c, done)) = .ok (c', done')) :
    Keeps cfg c c' := by
  cases hsend : c.trySendReverseToVM cfg turn with
  | error thrown =>
      rw [hsend] at h
      cases h
  | ok c₁ =>
      rw [hsend] at h
      cases h
      exact (trySendReverseToVM_sends hsend).keeps

/-- The acknowledgement part of `handleReverseTCP` as well. -/
theorem handleReverseTCPAck_keeps {done : Bool}
    (h : c.handleReverseTCPAck cfg turn seg = .ok (c', done)) : Keeps cfg c c' := by
  unfold handleReverseTCPAck at h
  split at h
  · cases h
  rename_i c₁ result hack
  have hacked : Keeps cfg c c₁ := (acknowledge_sends hack).keeps
  dsimp only at h
  split at h
  · cases h
    exact hacked
  have hupdated := hacked.trans
    (updateTCPWindow_sends cfg c₁ seg.seqNum seg.ackNum seg.window.toNat).keeps
  generalize c₁.updateTCPWindow seg.seqNum seg.ackNum seg.window.toNat = updated at h hupdated
  obtain ⟨c₂, windowChanged⟩ := updated
  have hnoted : ∀ {c₃ : Conn} {done' : Bool},
      (if result.status = .advanced then
        if (c₂.noteAdvancedAck cfg result.ackedDataBytes seg.ackNum).bothClosed = true then
          .ok ((c₂.noteAdvancedAck cfg result.ackedDataBytes seg.ackNum).finishReverseConnection,
            true)
        else ((c₂.noteAdvancedAck cfg result.ackedDataBytes seg.ackNum).trySendReverseToVM cfg
          turn).map fun c => (c, false)
      else if c₂.isDuplicateAck seg windowChanged = true then
        .ok (c₂.noteDuplicateAck cfg turn seg.ackNum, false)
      else .ok (c₂, false)) = (.ok (c₃, done') : Outcome (Conn × Bool)) → Keeps cfg c₂ c₃ := by
    intro c₃ done' hok
    split at hok
    · have hadvanced := (noteAdvancedAck_sends cfg c₂ result.ackedDataBytes seg.ackNum).keeps
      split at hok
      · cases hok
        exact hadvanced.trans (finishReverseConnection_sends cfg _).keeps
      · exact hadvanced.trans (trySendReverseToVM_keeps hok)
    split at hok
    · cases hok
      exact (noteDuplicateAck_sends cfg turn c₂ seg.ackNum).keeps
    · cases hok
      exact .refl c₂
  split at h
  · cases h
  · rename_i c₃ hok
    cases h
    exact hupdated.trans (hnoted hok)
  · rename_i c₃ hok
    have hgone := hupdated.trans (hnoted hok)
    split at h
    · exact hgone.trans ((trySendReverseToVM_keeps h).after rfl)
    · cases h
      exact hgone

/-- And the whole of that handler. -/
theorem handleReverseTCP_keeps (h : c.handleReverseTCP cfg turn seg = .ok c') :
    Keeps cfg c c' := by
  unfold handleReverseTCP at h
  dsimp only at h
  split at h
  · cases h
    exact (abortReverseConnection_sends cfg turn { c with idleTimer := true } false).keeps.after rfl
  split at h
  · split at h
    · exact (handleReverseSynAck_keeps h).after rfl
    · cases h
      exact .of_eq rfl
  split at h
  · cases h
    exact (sendTCPAck_sends cfg { c with idleTimer := true }).keeps.after rfl
  split at h
  · cases h
    exact .of_eq rfl
  split at h
  · cases h
    exact (handleReverseTCPData_keeps cfg turn { c with idleTimer := true } seg).after rfl
  split at h
  · cases h
  · rename_i c₁ hack
    cases h
    exact (handleReverseTCPAck_keeps hack).after rfl
  · rename_i c₁ hack
    cases h
    exact ((handleReverseTCPAck_keeps hack).trans
      (handleReverseTCPData_keeps cfg turn c₁ seg)).after rfl

theorem trySend_keeps (h : c.trySend cfg turn = .ok c') : Keeps cfg c c' := by
  obtain ⟨refusals, hsent⟩ := trySend_sends h
  exact hsent.keeps

theorem bumpActivity_keeps (cfg : Settings) (c : Conn) : Keeps cfg c c.bumpActivity := by
  unfold bumpActivity
  split
  · exact .refl c
  · exact .of_eq rfl

theorem handle_keeps {event : Event} (h : c.handle cfg turn event = .ok c') : Keeps cfg c c' := by
  by_cases hother : ∀ seg, event ≠ .segment seg
  · obtain ⟨refusals, c₀, ⟨hsame, -⟩, hsent⟩ := handle_sends hother h
    exact hsent.keeps.after hsame
  · obtain ⟨seg, rfl⟩ : ∃ seg, event = .segment seg := by simpa using hother
    unfold handle onSegment at h
    dsimp only at h
    split at h
    · exact handleTCP_keeps h
    · exact handleReverseTCP_keeps h

theorem run_keeps {labels : List (Turn × Event)} (h : Transition.Run (Step cfg) c labels c') :
    Keeps cfg c c' := by
  induction h with
  | nil => exact .refl _
  | snoc _ hstep ih => exact ih.trans (handle_keeps hstep.2)

/-- The ports of a connection are 16-bit fields of a segment of the VM, or the
counter `nextProxyPort`, except that a reverse connection goes to the port its
rule names. -/
structure PortsFrom (rules : Int → Prop) (c : Conn) : Prop where
  srcPort : c.tx.srcPort ≤ 0xffff
  outbound : c.direction = .outbound → 0 ≤ c.tx.dstPort ∧ c.tx.dstPort ≤ 0xffff
  reverse : c.direction = .reverse → rules c.tx.dstPort

end Conn

/-- Every field of the header holds its value, and the segment reaches
`sendIPToVM` whatever its identification. -/
structure WireSegment.Written (wire : WireSegment) : Prop where
  fits : wire.Fits
  sequence : wire.sequence.toNat < 2 ^ 32
  acknowledgment : wire.acknowledgment.toNat < 2 ^ 32
  packet : ∀ identification, ∃ ip, wire.packet identification = .ok ip

theorem WireSegment.Fits.written {wire : WireSegment} (h : wire.Fits) : wire.Written :=
  ⟨h, wire.sequence.isLt, wire.acknowledgment.isLt,
    fun identification => (wire.packet_iff_fits identification).mpr h⟩

/-- The bounds of `sendTCP` leave only the configured window in doubt. -/
theorem WireSegment.Bounded.fits {cfg : Settings} {wire : WireSegment} (h : wire.Bounded cfg)
    (hwindow : cfg.tcpWindowSize ≤ 0xffff) (hsrcPort : wire.flow.srcPort ≤ 0xffff)
    (hdstPort : 0 ≤ wire.flow.dstPort ∧ wire.flow.dstPort ≤ 0xffff) : wire.Fits := by
  refine ⟨hsrcPort, hdstPort, h.window.trans (Nat.max_le.mpr ⟨Nat.le_refl _, hwindow⟩), ?_⟩
  rw [tcpHeaderLength, tcpOptions_length, h.mss]
  cases hsyn : wire.flags.syn with
  | true =>
      rw [h.syn hsyn]
      simp
  | false =>
      have hpayload := h.payload
      have hmtu := cfg.mtu_range
      unfold Settings.TCP_MSS at hpayload
      simp only [Bool.false_eq_true, if_false, Option.isSome_none]
      omega

namespace Conn

variable {cfg : Settings} {identification : Nat → Fin 65535} {c c' : Conn}

/-- A connection whose opening has returned has sent its SYN or SYN-ACK within
the bounds. -/
theorem Opened.tidy (h : Opened cfg c) : c.Tidy cfg := by
  have hnew : ∀ {c₀ : Conn}, c₀.send.retransmission.segments = [] → c₀.sent = [] →
      c₀.Tidy cfg := by
    intro c₀ hsegments hsent
    refine ⟨fun segment hmem => ?_, fun wire hmem => ?_⟩
    · rw [hsegments] at hmem
      cases hmem
    · rw [hsent] at hmem
      cases hmem
  cases h with
  | outbound hopen =>
      refine (sendTrackedTCP_sends (fun _ => plain_control cfg fun windowSize hw => ?_)
        (sends_of_openOutbound hopen)).keeps.tidy (hnew rfl rfl)
      rw [← Option.some.inj hw]
      exact Nat.le_max_right _ _
  | reverse hopen =>
      exact (sendTrackedTCP_sends (fun _ => plain_control cfg fun _ hw => by cases hw)
        (sends_of_openReverse hopen)).keeps.tidy (hnew rfl rfl)

theorem Reachable.tidy (h : Reachable cfg c) : c.Tidy cfg := by
  obtain ⟨c₀, hopened, labels, hrun⟩ := h
  exact (run_keeps hrun).tidy hopened.tidy

/-- How `sendTrackedTCP` ends with its buffers. An exception, of a write or of
`track`, leaves the connection as it was then. -/
def emitTrackedTCP (cfg : Settings) (identification : Nat → Fin 65535) (c : Conn)
    (payload : Bytes) (flags : Flags) (sequence : Option Seq) (advance : Bool) :
    Conn × Option (String ⊕ Fault) :=
  match c.emitTCP cfg identification payload flags sequence advance with
  | .error interrupted => (interrupted.conn, some (.inl interrupted.message))
  | .ok emission =>
    match emission.conn.trackAll emission.segments with
    | .error thrown => (thrown.conn, some (.inr thrown.fault))
    | .ok c => (c, none)

/-- `handleTCP` for a SYN under a key that is free, with its buffers. The
connection is in the map before its queue is made and its SYN-ACK built. -/
def emitOutbound (cfg : Settings) (identification : Nat → Fin 65535)
    (rateLimiter : SlidingWindowRateLimiter) (seg : VMSegment) (isn : Seq) :
    Conn × Option (String ⊕ Fault) :=
  let c := outboundConn cfg rateLimiter seg isn
  match rtoRefusal cfg with
  | some message => (c, some (.inr (.options message)))
  | none =>
    c.emitTrackedTCP cfg identification []
      { syn := true, ack := true, windowSize := some cfg.tcpWindowSize } (some isn) false

/-- `createTCPConnection` once a source port is chosen, with its buffers. -/
def emitReverse (cfg : Settings) (identification : Nat → Fin 65535)
    (rateLimiter : SlidingWindowRateLimiter) (vmIP : IPv4) (srcPort : Port) (port : Int)
    (isn : Seq) : Conn × Option (String ⊕ Fault) :=
  let c := reverseConn cfg rateLimiter vmIP srcPort port isn
  match rtoRefusal cfg with
  | some message => ({ c with idleTimer := false }, some (.inr (.options message)))
  | none => c.emitTrackedTCP cfg identification [] { syn := true } none true

/-- How an opening of the connection record shows with buffers: a value that
does not fit is the `RangeError` of its write. -/
def emitted : Outcome Conn → Conn × Option (String ⊕ Fault)
  | .ok c => (c, none)
  | .error ⟨.range value, c⟩ => (c, some (.inl (outOfRange value)))
  | .error ⟨fault, c⟩ => (c, some (.inr fault))

theorem emitted_returned_iff {outcome : Outcome Conn} :
    (emitted outcome).2 = none ↔ ∃ c, outcome = .ok c := by
  cases outcome with
  | ok c => exact iff_of_true rfl ⟨c, rfl⟩
  | error thrown =>
      obtain ⟨fault, c⟩ := thrown
      refine iff_of_false ?_ ?_
      · cases fault <;> exact Option.some_ne_none _
      · rintro ⟨c', ⟨⟩⟩

/-- The retransmission queue holds a SYN-ACK. -/
def TracksSynAck (c : Conn) : Prop :=
  ∃ segment ∈ c.send.retransmission.segments,
    segment.flags.syn = true ∧ segment.flags.ack = true

/-- The SYN was handled without an exception, and its SYN-ACK will be repeated. -/
structure SynHandled (result : Conn × Option (String ⊕ Fault)) : Prop where
  returned : result.2 = none
  tracked : result.1.registered = true → result.1.TracksSynAck

/-- A control segment that can be written goes out and is tracked. -/
theorem emitTrackedTCP_ok {payload : Bytes} {flags : Flags} {sequence : Option Seq}
    {advance : Bool} (h : Sendable cfg c payload flags) (hrst : flags.rst = true → payload = [])
    (hok : c.sendTrackedTCP cfg payload flags sequence advance = .ok c') :
    c.emitTrackedTCP cfg identification payload flags sequence advance = (c', none) := by
  obtain ⟨ips, wires, hemit, -⟩ := @emitTCP_ok cfg identification c payload flags h hrst sequence
    advance
  have htrack : (c.sendTCP cfg payload flags sequence advance).1.trackAll
      (c.sendTCP cfg payload flags sequence advance).2 = .ok c' := hok
  unfold emitTrackedTCP
  rw [hemit]
  dsimp only
  rw [htrack]

/-- A control segment that cannot be written leaves the connection as it was. -/
theorem emitTrackedTCP_unwritten {flags : Flags} {sequence : Option Seq} {advance : Bool}
    {message : String}
    (h : (c.wire cfg (sequence.getD c.send.relaySeq) [] flags).tcp = .error message) :
    c.emitTrackedTCP cfg identification [] flags sequence advance =
      (c, some (.inl message)) := by
  have hloop : c.emitTCP cfg identification [] flags sequence advance =
      .error { conn := c, segments := [], packets := [], message } := by
    unfold emitTCP emitTCPLoop
    simp only [List.take_nil, List.drop_nil, List.isEmpty_nil, Bool.and_true, h]
  unfold emitTrackedTCP
  rw [hloop]

section Outbound

variable {rateLimiter : SlidingWindowRateLimiter} {seg : VMSegment} {isn : Seq}

/-- Its ports are those of a segment, and fit. So the SYN handler does to the
connection what `openOutbound` says, and throws what that throws. -/
theorem emitOutbound_eq (hsrcPort : seg.srcPort ≤ 0xffff) (hdstPort : seg.dstPort ≤ 0xffff) :
    emitOutbound cfg identification rateLimiter seg isn =
      emitted (openOutbound cfg rateLimiter seg isn) := by
  have hport : 0 ≤ (seg.srcPort : Int) ∧ (seg.srcPort : Int) ≤ 0xffff :=
    ⟨Int.natCast_nonneg _, Int.ofNat_le.mpr hsrcPort⟩
  unfold emitOutbound
  dsimp only
  cases hrefusal : rtoRefusal cfg with
  | some message =>
      rw [openOutbound_refused hrefusal]
      rfl
  | none =>
      have haccepted := rtoRefusal_eq_none_iff.mp hrefusal
      rcases Nat.lt_or_ge 0xffff cfg.tcpWindowSize with hwindow | hwindow
      · rw [openOutbound_overflow haccepted hwindow]
        refine emitTrackedTCP_unwritten ?_
        unfold WireSegment.tcp
        refine (if_neg (Nat.not_lt_of_le hdstPort)).trans ((if_neg ?_).trans (if_pos hwindow))
        exact not_or.mpr ⟨not_lt.mpr hport.1, not_lt.mpr hport.2⟩
      · have hopen := openOutbound_transmit haccepted hwindow rateLimiter seg isn
        rw [hopen]
        exact emitTrackedTCP_ok ⟨hdstPort, hport, hwindow, fun _ => by simp⟩ (fun _ => rfl)
          (sends_of_openOutbound hopen)

/-- A SYN is handled exactly where the opening returns. -/
theorem emitOutbound_handled_iff (hsrcPort : seg.srcPort ≤ 0xffff)
    (hdstPort : seg.dstPort ≤ 0xffff) :
    SynHandled (emitOutbound cfg identification rateLimiter seg isn) ↔
      cfg.RtoAccepted ∧ cfg.tcpWindowSize ≤ 0xffff := by
  rw [emitOutbound_eq hsrcPort hdstPort,
    ← @openOutbound_returns_iff cfg rateLimiter seg isn]
  constructor
  · intro h
    exact emitted_returned_iff.mp h.returned
  · rintro ⟨c, hopen⟩
    rw [hopen]
    refine ⟨rfl, fun _ => ?_⟩
    obtain ⟨c₀, flags, -, hsyn, hack, -, -, -, rfl⟩ := openOutbound_ok hopen
    obtain ⟨segment, hmem, -, hflags⟩ := c₀.send.retransmission.mem_tracked_segments
      { seq := c₀.send.relaySeq, payload := [], flags }
    exact ⟨segment, hmem, by rw [hflags]; exact hsyn, by rw [hflags]; exact hack⟩

end Outbound

section Reverse

variable {rateLimiter : SlidingWindowRateLimiter} {vmIP : IPv4} {srcPort : Port} {port : Int}
  {isn : Seq}

/-- The source port is the counter `nextProxyPort`, and fits. -/
theorem emitReverse_eq (hsrcPort : srcPort ≤ 0xffff) :
    emitReverse cfg identification rateLimiter vmIP srcPort port isn =
      emitted (openReverse cfg rateLimiter vmIP srcPort port isn) := by
  unfold emitReverse
  dsimp only
  cases hrefusal : rtoRefusal cfg with
  | some message =>
      rw [openReverse_refused hrefusal]
      rfl
  | none =>
      have haccepted := rtoRefusal_eq_none_iff.mp hrefusal
      by_cases hport : port < 0 ∨ port > 0xffff
      · rw [openReverse_overflow haccepted hport]
        refine emitTrackedTCP_unwritten ?_
        unfold WireSegment.tcp
        exact (if_neg (Nat.not_lt_of_le hsrcPort)).trans (if_pos hport)
      · have hfits : 0 ≤ port ∧ port ≤ 0xffff := by omega
        have hopen := openReverse_transmit haccepted hfits rateLimiter vmIP srcPort isn
        rw [hopen]
        exact emitTrackedTCP_ok ⟨hsrcPort, hfits, Nat.min_le_left _ _, fun _ => by simp⟩
          (fun _ => rfl) (sends_of_openReverse hopen)

/-- The SYN of the relay is written exactly where its destination port fits. -/
theorem emitReverse_written_iff (h : cfg.RtoAccepted) (hsrcPort : srcPort ≤ 0xffff) :
    (∀ message, (emitReverse cfg identification rateLimiter vmIP srcPort port isn).2 ≠
      some (.inl message)) ↔ 0 ≤ port ∧ port ≤ 0xffff := by
  rw [emitReverse_eq hsrcPort]
  by_cases hport : port < 0 ∨ port > 0xffff
  · rw [openReverse_overflow h hport]
    exact iff_of_false (fun hwritten => hwritten _ rfl) (by omega)
  · have hfits : 0 ≤ port ∧ port ≤ 0xffff := by omega
    rw [openReverse_transmit h hfits]
    exact iff_of_true nofun hfits

end Reverse

/-- No segment of any connection overflows a field, and no SYN is left without
its SYN-ACK, exactly where `TCP_WINDOW_SIZE` and the ports of the rules are
16-bit numbers and the queue of a new connection accepts its settings. -/
theorem headers_written_iff (cfg : Settings) (rules : Int → Prop) :
    ((∀ c, Reachable cfg c → c.PortsFrom rules → ∀ wire ∈ c.sent, wire.Written) ∧
      (∀ identification rateLimiter vmIP srcPort port isn, srcPort ≤ 0xffff → rules port →
        ∀ message, (emitReverse cfg identification rateLimiter vmIP srcPort port isn).2 ≠
          some (.inl message)) ∧
      ∀ identification rateLimiter seg isn, seg.srcPort ≤ 0xffff → seg.dstPort ≤ 0xffff →
        SynHandled (emitOutbound cfg identification rateLimiter seg isn)) ↔
      cfg.tcpWindowSize ≤ 0xffff ∧ cfg.RtoAccepted ∧
        ∀ port, rules port → 0 ≤ port ∧ port ≤ 0xffff := by
  constructor
  · rintro ⟨-, hreverse, hsyn⟩
    have hhandled := hsyn (fun _ => 0) cfg.rateLimiter exampleSyn 0 (Nat.zero_le _) (Nat.zero_le _)
    obtain ⟨haccepted, hwindow⟩ :=
      (emitOutbound_handled_iff (Nat.zero_le _) (Nat.zero_le _)).mp hhandled
    exact ⟨hwindow, haccepted, fun port hrule =>
      (emitReverse_written_iff haccepted (Nat.zero_le _)).mp
        (hreverse (fun _ => 0) cfg.rateLimiter 0 0 port 0 (Nat.zero_le _) hrule)⟩
  · rintro ⟨hwindow, haccepted, hrules⟩
    refine ⟨fun c hreachable hports wire hmem => ?_, fun _ _ _ _ port _ hsrcPort hrule =>
      (emitReverse_written_iff haccepted hsrcPort).mpr (hrules port hrule),
      fun _ _ _ _ hsrcPort hdstPort =>
        (emitOutbound_handled_iff hsrcPort hdstPort).mpr ⟨haccepted, hwindow⟩⟩
    obtain ⟨hflow, hbounded⟩ := hreachable.tidy.sent wire hmem
    have hdstPort : 0 ≤ c.tx.dstPort ∧ c.tx.dstPort ≤ 0xffff := by
      cases hdir : c.direction with
      | outbound => exact hports.outbound hdir
      | reverse => exact hrules _ (hports.reverse hdir)
    exact (hbounded.fits hwindow (hflow ▸ hports.srcPort) (hflow ▸ hdstPort)).written

/-- A window of 65536 bytes, one more than the field holds. -/
def widened (cfg : Settings) : Settings := { cfg with tcpWindowSize := 65536 }

/-- The SYN-ACK throws. The SYN is answered by nothing, and its connection
stays. -/
theorem emitOutbound_untracked :
    (emitOutbound (widened {}) (fun _ => 0) (widened {}).rateLimiter exampleSyn 7).2.isSome = true ∧
      (emitOutbound (widened {}) (fun _ => 0) (widened {}).rateLimiter exampleSyn 7).1.registered =
        true ∧
      (emitOutbound (widened {}) (fun _ => 0) (widened {}).rateLimiter exampleSyn 7).1.sent = [] ∧
      (emitOutbound (widened {}) (fun _ => 0) (widened {}).rateLimiter exampleSyn
        7).1.send.retransmission.segments = [] := by
  decide

end Conn

end RootlessRelay
