import RootlessRelay.Tcp.SendGuarantees

/-!
# The closed window

While the VM advertises a window of zero, payload may only leave in one-byte
probes of the persist timer. Two steps break this: an acknowledgement during
recovery that leaves the window closed, because the recovery head is repeated
before the send loop switches to persist mode, and a retransmission timeout
before persist mode is on, because the pacer holds the send loop back. Every
other step obeys.

`Hushed` is what the obedient functions do: the window stays, and while it is
closed nothing with payload is sent. A segment may change the window on its way,
so what it sends is stated against the window it leaves (`SegmentSends`). The
two exceptions are conditions on the state and the event before the step.
-/

namespace RootlessRelay

open SequenceSpace Transition SendStream

namespace Conn

variable {cfg : Settings} {turn : Turn} {c c' c'' : Conn} {seg : VMSegment}

/-- Some of the segments carry payload. -/
def Loud (wires : List WireSegment) : Prop := ∃ wire ∈ wires, wire.payload ≠ []

theorem not_loud_nil : ¬Loud [] := by simp [Loud]

theorem not_loud {wires : List WireSegment} (h : ∀ wire ∈ wires, wire.payload = []) :
    ¬Loud wires := fun ⟨wire, hmem, hne⟩ => hne (h wire hmem)

theorem loud_append {wires wires' : List WireSegment} :
    Loud (wires ++ wires') ↔ Loud wires ∨ Loud wires' := by
  simp [Loud, or_and_right, exists_or]

/-- The window stays, and while it is closed no payload is sent. -/
structure Hushed (c c' : Conn) : Prop where
  window : c'.send.vmWindow = c.send.vmWindow
  silent : c.send.vmWindow = 0 → ∃ wires, c'.sent = c.sent ++ wires ∧ ¬Loud wires

namespace Hushed

theorem of_eq (hwindow : c'.send.vmWindow = c.send.vmWindow) (hsent : c'.sent = c.sent) :
    Hushed c c' := ⟨hwindow, fun _ => ⟨[], by rw [hsent, List.append_nil], not_loud_nil⟩⟩

theorem refl (c : Conn) : Hushed c c := of_eq rfl rfl

theorem trans (h : Hushed c c') (h' : Hushed c' c'') : Hushed c c'' := by
  refine ⟨h'.window.trans h.window, fun hw => ?_⟩
  obtain ⟨wires, hsent, hsilent⟩ := h.silent hw
  obtain ⟨wires', hsent', hsilent'⟩ := h'.silent (h.window.trans hw)
  refine ⟨wires ++ wires', by rw [hsent', hsent, List.append_assoc], ?_⟩
  rw [loud_append]
  exact fun hl => hl.elim hsilent hsilent'

theorem passive (h : Passive c c') : Hushed c c' := by
  obtain ⟨wires, hsent, hsilent⟩ := h.silent
  exact ⟨by rw [h.send], fun _ => ⟨wires, hsent, not_loud hsilent⟩⟩

theorem givenUp (h : GivenUp c c') : Hushed c c' := by
  obtain ⟨wires, hsent, hsilent⟩ := h.sent
  exact ⟨h.window, fun _ => ⟨wires, hsent, not_loud hsilent⟩⟩

end Hushed

theorem finishTCPConnection_hushed (c : Conn) : Hushed c c.finishTCPConnection := by
  unfold finishTCPConnection
  split <;> exact .of_eq rfl rfl

theorem finishReverseConnection_hushed (c : Conn) : Hushed c c.finishReverseConnection := by
  unfold finishReverseConnection
  split <;> exact .of_eq rfl rfl

/-- A FIN of the VM is answered without payload. -/
theorem handleTCPFin_hushed (cfg : Settings) (c : Conn) (seg : VMSegment) :
    Hushed c (c.handleTCPFin cfg seg) := by
  unfold handleTCPFin
  split
  · exact .refl c
  split
  · exact .passive (scheduleTCPAck_passive cfg c 0 true)
  · have hp := (Hushed.passive (Passive.withRecv c (passFin c.recv))).trans
      (.passive (scheduleTCPAck_passive cfg { c with recv := passFin c.recv } 0 true))
    dsimp only
    generalize ({ c with recv := passFin c.recv } : Conn).scheduleTCPAck cfg 0 true = c₁ at hp ⊢
    have hclosing : Hushed c₁ { c₁ with state := .closing, recv := endSink c₁.recv } :=
      .of_eq rfl rfl
    split
    · exact (hp.trans hclosing).trans (finishTCPConnection_hushed _)
    · exact hp.trans hclosing

theorem handleReverseTCPFin_hushed (cfg : Settings) (c : Conn) (seg : VMSegment) :
    Hushed c (c.handleReverseTCPFin cfg seg) := by
  unfold handleReverseTCPFin
  split
  · exact .refl c
  split
  · exact .passive (scheduleTCPAck_passive cfg c 0 true)
  · have hclosing : Hushed c { c with state := .closing, recv := endSink (passFin c.recv) } :=
      .of_eq rfl rfl
    have hp := hclosing.trans (.passive (scheduleTCPAck_passive cfg _ 0 true))
    dsimp only
    split
    · exact hp.trans (finishReverseConnection_hushed _)
    · exact hp

theorem handleTCPData_hushed (cfg : Settings) (turn : Turn) (c : Conn) (seg : VMSegment) :
    Hushed c (c.handleTCPData cfg turn seg) := by
  have hp := Hushed.passive (handleTCPPayload_spec cfg turn c seg).1
  unfold handleTCPData
  dsimp only
  split
  · exact hp
  · exact hp.trans (handleTCPFin_hushed cfg _ seg)

theorem handleReverseTCPData_hushed (cfg : Settings) (turn : Turn) (c : Conn)
    (seg : VMSegment) : Hushed c (c.handleReverseTCPData cfg turn seg) := by
  have hp := Hushed.passive (handleReverseTCPPayload_spec cfg turn c seg).1
  unfold handleReverseTCPData
  dsimp only
  split
  · exact hp
  · exact hp.trans (handleReverseTCPFin_hushed cfg _ seg)

/-- The send loop obeys. -/
theorem Ready.trySend_hushed (h : Ready cfg c)
    (hawait : c.state = .synSent → c.send.retransmission.segments ≠ [])
    (hok : c.trySend cfg turn = .ok c') : Hushed c c' := by
  obtain ⟨d, hd, -, hev, hquiet⟩ := h.trySend turn hawait
  obtain rfl := Except.ok.inj (hok.symm.trans hd)
  exact ⟨hev.vmWindow, fun hw => ⟨[], by rw [hquiet hw, List.append_nil], not_loud_nil⟩⟩

/-- The established part of `handleTCP` obeys. -/
theorem handleTCPEstablished_hushed (h : Ready cfg c) (hdir : c.direction = .outbound)
    {progress windowChanged : Bool}
    (hok : c.handleTCPEstablished cfg turn seg progress windowChanged = .ok c') :
    Hushed c c' := by
  unfold handleTCPEstablished at hok
  split at hok
  · obtain rfl := Except.ok.inj hok
    exact .refl c
  rename_i hopen
  have hopen : c.state.isOpen = true := by simpa using hopen
  split at hok
  · obtain rfl := Except.ok.inj hok
    exact finishTCPConnection_hushed c
  · cases progress with
    | false =>
        obtain rfl := Except.ok.inj hok
        exact handleTCPData_hushed cfg turn c seg
    | true =>
        have hready : Ready cfg (if windowChanged then
            { c with send := { c.send with dupAckCount := 0 } } else c) := by
          split
          · exact h.withDup 0
          · exact h
        have hsame : Hushed c (if windowChanged then
            { c with send := { c.send with dupAckCount := 0 } } else c) ∧
            (if windowChanged then { c with send := { c.send with dupAckCount := 0 } }
              else c).direction = .outbound ∧
            (if windowChanged then { c with send := { c.send with dupAckCount := 0 } }
              else c).state = c.state := by
          split
          · exact ⟨.of_eq rfl rfl, hdir, rfl⟩
          · exact ⟨.refl c, hdir, rfl⟩
        simp only [if_true] at hok
        generalize (if windowChanged then { c with send := { c.send with dupAckCount := 0 } }
          else c) = c₀ at hok hready hsame
        obtain ⟨hhush, hdir₀, hstate⟩ := hsame
        rw [← trySend_outbound hdir₀] at hok
        cases hsend : c₀.trySend cfg turn with
        | error thrown =>
            rw [hsend] at hok
            cases hok
        | ok c₁ =>
            rw [hsend] at hok
            obtain rfl := Except.ok.inj hok
            have hsent := hready.trySend_hushed
              (fun hs => absurd (hstate.symm.trans hs) (not_synSent_of_isOpen hopen)) hsend
            exact (hhush.trans hsent).trans (handleTCPData_hushed cfg turn c₁ seg)

/-- So does the part before it, which may end the handshake. -/
theorem handleTCPState_hushed (h : Ready cfg c) (hdir : c.direction = .outbound)
    {status : Option AckStatus} {windowChanged : Bool}
    (hok : c.handleTCPState cfg turn seg status windowChanged = .ok c') : Hushed c c' := by
  unfold handleTCPState at hok
  dsimp only at hok
  split at hok
  · rename_i hs
    split at hok
    · obtain rfl := Except.ok.inj hok
      exact .refl c
    · rename_i hout
      have hp := sendTCPAck_passive cfg { c with state := .established }
      have hdone : status = some .advanced ∧ c.send.retransmission.hasOutstanding = false := by
        simpa using hout
      have hready : Ready cfg { c with state := .established } := h.establish hdir hs hdone.2
      have hopened : Hushed c { c with state := .established } := .of_eq rfl rfl
      exact (hopened.trans (.passive hp)).trans (handleTCPEstablished_hushed (hready.passive hp)
        (hp.direction.trans hdir) hok)
  · exact handleTCPEstablished_hushed h hdir hok

/-- What is resent carries payload exactly if the segment does. -/
theorem resend_loud (cfg : Settings) (c : Conn) (segment : Segment) :
    ∃ wires, c.resend cfg segment = c.emit wires ∧ (Loud wires ↔ segment.payload ≠ []) := by
  have htake : segment.payload.take (c.tcpMss cfg) ≠ [] ↔ segment.payload ≠ [] := by
    have hpos := tcpMss_pos cfg c
    rw [ne_eq, List.take_eq_nil_iff]
    simp only [not_or]
    exact ⟨fun h => h.2, fun h => ⟨by omega, h⟩⟩
  unfold resend sendTCP
  simp only [sendTCPLoop, Option.getD_some]
  split
  · exact ⟨_, sendChunk_resend cfg c _ _ _, by simpa [Loud, wire] using htake⟩
  · rename_i hmore
    rw [sendChunk_resend]
    obtain ⟨wires, hwires⟩ := sendTCPLoop_resend cfg (c.tcpMss cfg) segment.flags
      segment.payload.length (c.emit [c.wire cfg segment.seq (segment.payload.take (c.tcpMss cfg))
        { segment.flags with
          psh := segment.flags.psh && (segment.payload.drop (c.tcpMss cfg)).isEmpty
          fin := segment.flags.fin && (segment.payload.drop (c.tcpMss cfg)).isEmpty
          syn := segment.flags.syn && true }]) _ false (segment.payload.drop (c.tcpMss cfg)) _
    refine ⟨_, hwires.trans (emit_emit _ _ _), ?_⟩
    have hne : segment.payload ≠ [] := by
      rintro hnil
      simp [hnil] at hmore
    rw [loud_append]
    exact iff_of_true (.inl (by simpa [Loud, wire] using htake.mpr hne)) hne

/-- The acknowledgement covers payload and stays below the recovery point. -/
def Recovers (c : Conn) (ackedDataBytes : Nat) (ackNum : Seq) : Prop :=
  ackedDataBytes ≠ 0 ∧ ∃ recoveryUntil, c.send.congestionRecoveryUntil = some recoveryUntil ∧
    ¬(ackNum = recoveryUntil ∨ seqLessThan recoveryUntil ackNum = true)

/-- An acknowledgement that advanced sends payload exactly if it repeats the
recovery head and the head has some. -/
theorem noteAdvancedAck_sent (cfg : Settings) (c : Conn) (ackedDataBytes : Nat) (ackNum : Seq) :
    (c.noteAdvancedAck cfg ackedDataBytes ackNum).send.vmWindow = c.send.vmWindow ∧
    ∃ wires, (c.noteAdvancedAck cfg ackedDataBytes ackNum).sent = c.sent ++ wires ∧
      (Loud wires ↔ c.Recovers ackedDataBytes ackNum ∧
        ∃ segment, c.send.retransmission.oldest = some segment ∧ segment.payload ≠ []) := by
  have hsilent : ∀ c' : Conn, c'.send.vmWindow = c.send.vmWindow → c'.sent = c.sent →
      ¬(c.Recovers ackedDataBytes ackNum ∧
        ∃ segment, c.send.retransmission.oldest = some segment ∧ segment.payload ≠ []) →
      c'.send.vmWindow = c.send.vmWindow ∧ ∃ wires, c'.sent = c.sent ++ wires ∧
        (Loud wires ↔ c.Recovers ackedDataBytes ackNum ∧
          ∃ segment, c.send.retransmission.oldest = some segment ∧ segment.payload ≠ []) :=
    fun c' hwindow hsent hno =>
      ⟨hwindow, [], by rw [hsent, List.append_nil], iff_of_false not_loud_nil hno⟩
  unfold noteAdvancedAck onTCPCongestionAck
  dsimp only
  split
  · rename_i hzero
    exact hsilent _ rfl rfl fun hr => hr.1.1 hzero
  rename_i hpos
  split
  · rename_i recoveryUntil hr
    split
    · rename_i hreached
      refine hsilent _ rfl rfl fun ⟨⟨_, r, hr', hbelow⟩, _⟩ => hbelow ?_
      obtain rfl : recoveryUntil = r := Option.some.inj (hr.symm.trans hr')
      exact hreached
    · rename_i hbelow
      unfold retransmitTCPRecoveryHead
      split
      · rename_i hnone
        refine hsilent _ rfl rfl fun ⟨_, segment, hsome, _⟩ => ?_
        rw [hsome] at hnone
        cases hnone
      · rename_i segment hsome
        obtain ⟨wires, he, hloud⟩ := resend_loud cfg { c with send := { c.send with
          dupAckCount := 0
          fastRetransmitAck := some c.send.retransmission.sndUna
          vmLastAck := c.send.retransmission.sndUna } } segment
        rw [he]
        refine ⟨rfl, wires, rfl, hloud.trans ⟨fun hne => ⟨⟨hpos, recoveryUntil, hr, hbelow⟩,
          segment, hsome, hne⟩, fun ⟨_, segment', hsome', hne⟩ => ?_⟩⟩
        obtain rfl : segment = segment' := Option.some.inj (hsome.symm.trans hsome')
        exact hne
  · rename_i hnone
    refine hsilent _ rfl rfl fun ⟨⟨_, r, hr, _⟩, _⟩ => ?_
    rw [hr] at hnone
    cases hnone

/-- Without a SYN, the oldest segment carries payload exactly if the first item
is a byte. -/
theorem oldest_payload {q : RetransmissionQueue} (h : q.WellTracked) (hsyn : .syn ∉ q.items) :
    (∃ segment, q.oldest = some segment ∧ segment.payload ≠ []) ↔
      ∃ item, q.items.head? = some item ∧ item.isByte = true := by
  have hcontiguous := h.contiguous
  unfold RetransmissionQueue.oldest
  unfold RetransmissionQueue.items at hsyn ⊢
  cases hq : q.segments with
  | nil => simp
  | cons segment rest =>
      rw [hq] at hcontiguous hsyn
      obtain ⟨-, hlen, hpos, -⟩ := hcontiguous
      rw [segmentItems_cons, List.mem_append, not_or] at hsyn
      have hflag : segment.flags.syn = false := by
        by_contra hs
        exact hsyn.1 (by simp [Segment.items, itemsOf, hs])
      cases hpayload : segment.payload with
      | nil =>
          have hitems : segment.items = [.fin] := by
            have hfin : segment.flags.fin = true := by
              by_contra hf
              rw [hlen] at hpos
              simp [Segment.items, itemsOf, hflag, hf, hpayload] at hpos
            simp [Segment.items, itemsOf, hflag, hfin, hpayload]
          simp [segmentItems_cons, hitems, hpayload, Item.isByte]
      | cons b bytes =>
          refine iff_of_true ⟨segment, rfl, by simp [hpayload]⟩ ⟨.byte b, ?_, rfl⟩
          simp [segmentItems_cons, Segment.items, itemsOf, hflag, hpayload]

/-- During recovery the segment acknowledges payload below the recovery point,
leaves a byte as the next item, and the window it leaves is closed. -/
def RecoversIntoClosedWindow (c : Conn) (seg : VMSegment) : Prop :=
  (seg.ack = true ∧ seg.rst = false ∧ (c.direction = .reverse → seg.syn = false)) ∧
    (0 < c.ackedItems seg.ackNum ∧ c.Acceptable seg.ackNum) ∧
    c.Recovers (dataOf (c.stream.outstanding.take (c.ackedItems seg.ackNum))).length seg.ackNum ∧
    (∃ item, (c.stream.outstanding.drop (c.ackedItems seg.ackNum)).head? = some item ∧
      item.isByte = true) ∧
    (c.updateTCPWindow seg.seqNum seg.ackNum seg.window.toNat).1.send.vmWindow = 0

/-- What a segment makes the relay send while the window is closed. -/
structure SegmentSends (c : Conn) (seg : VMSegment) (c' : Conn) : Prop where
  closed : c.RecoversIntoClosedWindow seg → c'.send.vmWindow = 0
  sent : c'.send.vmWindow = 0 → ∃ wires, c'.sent = c.sent ++ wires ∧
    (Loud wires ↔ c.RecoversIntoClosedWindow seg)

namespace SegmentSends

/-- Nothing has been sent yet. -/
theorem of_sent (hno : ¬c.RecoversIntoClosedWindow seg) (hsent : c'.sent = c.sent) :
    SegmentSends c seg c' :=
  ⟨fun hyes => absurd hyes hno,
    fun _ => ⟨[], by rw [hsent, List.append_nil], iff_of_false not_loud_nil hno⟩⟩

/-- The rest of the handler obeys. -/
theorem trans (h : SegmentSends c seg c') (h' : Hushed c' c'') : SegmentSends c seg c'' := by
  refine ⟨fun hyes => h'.window.trans (h.closed hyes), fun hw => ?_⟩
  have hzero := h'.window.symm.trans hw
  obtain ⟨wires, hsent, hloud⟩ := h.sent hzero
  obtain ⟨wires', hsent', hsilent⟩ := h'.silent hzero
  refine ⟨wires ++ wires', by rw [hsent', hsent, List.append_assoc], ?_⟩
  rw [loud_append, or_iff_left hsilent]
  exact hloud

theorem hushed (hno : ¬c.RecoversIntoClosedWindow seg) (h : Hushed c c') :
    SegmentSends c seg c' := (of_sent hno rfl).trans h

end SegmentSends

theorem updateTCPWindow_congr (c c₁ : Conn) (hwindow : c₁.send.vmWindow = c.send.vmWindow)
    (hupdate : c₁.send.windowUpdate = c.send.windowUpdate) (sequence ack : Seq) (window : Nat) :
    (c₁.updateTCPWindow sequence ack window).1.send.vmWindow =
      (c.updateTCPWindow sequence ack window).1.send.vmWindow := by
  unfold updateTCPWindow isOldWindowUpdate
  rw [hupdate]
  dsimp only
  split <;> split <;> simp_all

/-- An acknowledgement that advances may repeat the recovery head. -/
theorem Acknowledged.sends {c₁ : Conn} {ackedDataBytes : Nat}
    (hack : Acknowledged cfg c c₁ seg.ackNum ackedDataBytes)
    (hread : seg.ack = true ∧ seg.rst = false ∧ (c.direction = .reverse → seg.syn = false)) :
    SegmentSends c seg ((c₁.updateTCPWindow seg.seqNum seg.ackNum
      seg.window.toNat).1.noteAdvancedAck cfg ackedDataBytes seg.ackNum) := by
  have hwindow := updateTCPWindow_congr c c₁ (by rw [hack.rest]) (by rw [hack.rest])
    seg.seqNum seg.ackNum seg.window.toNat
  obtain ⟨vmWindow, windowUpdate, hc₂, -⟩ :=
    updateTCPWindow_eq c₁ seg.seqNum seg.ackNum seg.window
  generalize (c₁.updateTCPWindow seg.seqNum seg.ackNum seg.window.toNat).1 = c₂ at hwindow hc₂ ⊢
  obtain ⟨hstays, wires, hsent, hloud⟩ := noteAdvancedAck_sent cfg c₂ ackedDataBytes seg.ackNum
  have hqueue : c₂.send.retransmission = c₁.send.retransmission := by rw [hc₂]
  have hitems : c₁.send.retransmission.items =
      c.stream.outstanding.drop (c.ackedItems seg.ackNum) :=
    congrArg State.outstanding hack.stream
  -- The SYN has been acknowledged, so it is not outstanding any more.
  have hsyn : Item.syn ∉ c₁.send.retransmission.items := by
    obtain ⟨rest, hhistory, hmem⟩ := hack.sending.synFirst
    obtain ⟨hpos, hle⟩ := hack.covered
    have hacked : c₁.stream.acknowledged =
        c.stream.acknowledged ++ c.stream.outstanding.take (c.ackedItems seg.ackNum) :=
      congrArg State.acknowledged hack.stream
    change c₁.stream.acknowledged ++ c₁.send.retransmission.items = _ at hhistory
    cases ha : c₁.stream.acknowledged with
    | nil =>
        have hlen := congrArg List.length (hacked.symm.trans ha)
        simp only [List.length_append, List.length_take, List.length_nil] at hlen
        omega
    | cons first acked =>
        rw [ha, List.cons_append, List.cons.injEq] at hhistory
        exact fun hin => hmem (hhistory.2 ▸ List.mem_append_right _ hin)
  have htracked : c₁.send.retransmission.WellTracked := hack.sending.tracked
  refine ⟨fun hyes => ?_, fun hw => ⟨wires, ?_, ?_⟩⟩
  · rw [hstays, hwindow]
    exact hyes.2.2.2.2
  · rw [hsent, hc₂]
    change c₁.sent ++ wires = _
    rw [hack.rest]
  · have hrecovers : c₂.Recovers ackedDataBytes seg.ackNum ↔ c.Recovers
        (dataOf (c.stream.outstanding.take (c.ackedItems seg.ackNum))).length seg.ackNum := by
      rw [hc₂, hack.data]
      unfold Recovers
      rw [hack.rest]
    rw [hloud, hqueue, oldest_payload htracked hsyn, hitems, hrecovers]
    exact ⟨fun ⟨hr, hbyte⟩ => ⟨hread, hack.covered, hr, hbyte,
      hwindow.symm.trans (hstays.symm.trans hw)⟩, fun ⟨_, _, hr, hbyte, _⟩ => ⟨hr, hbyte⟩⟩

/-- The retransmission callback sends payload exactly if its segment has some. -/
theorem onRetransmit_sent (cfg : Settings) (hreg : c.registered = true) (segment : Segment)
    (reason : Reason) :
    (c.onRetransmit cfg segment reason).send.vmWindow = c.send.vmWindow ∧
    ∃ wires, (c.onRetransmit cfg segment reason).sent = c.sent ++ wires ∧
      (Loud wires ↔ segment.payload ≠ []) := by
  have hloss : ∀ c₀ : Conn, (c₀.onTCPCongestionLoss cfg reason).send.vmWindow = c₀.send.vmWindow ∧
      (c₀.onTCPCongestionLoss cfg reason).sent = c₀.sent := by
    intro c₀
    unfold onTCPCongestionLoss
    dsimp only
    split <;> exact ⟨rfl, rfl⟩
  unfold onRetransmit
  rw [if_neg (by simp [hreg])]
  dsimp only
  obtain ⟨wires, hwires, hloud⟩ := resend_loud cfg
    (if reason ≠ .windowOpen then c.onTCPCongestionLoss cfg reason else c) segment
  rw [hwires]
  split
  · exact ⟨(hloss c).1, wires, by rw [emit_sent, (hloss c).2], hloud⟩
  · exact ⟨rfl, wires, rfl, hloud⟩

/-- During the handshake nothing with payload is outstanding. -/
theorem Live.fastRetransmit_handshake (h : Live cfg c) (hs : c.state = .synSent) (turn : Turn) :
    Hushed c (c.fastRetransmit cfg turn) := by
  obtain he | ⟨segment, hold, -, -, he⟩ := fastRetransmit_cases cfg turn c
  · rw [he]
    exact .refl c
  · have hempty : segment.payload = [] := by
      have hdata := congrArg dataOf (h.sending.handshake hs)
      have hsplit := dataOf_segmentItems c.send.retransmission.segments
      cases hq : c.send.retransmission.segments with
      | nil => simp [RetransmissionQueue.oldest, hq] at hold
      | cons first rest =>
          obtain rfl : first = segment := by simpa [RetransmissionQueue.oldest, hq] using hold
          rw [State.history, dataOf_append] at hdata
          change dataOf _ ++ dataOf (segmentItems c.send.retransmission.segments) = [] at hdata
          rw [hsplit, hq, List.flatMap_cons] at hdata
          simp only [List.append_eq_nil_iff] at hdata
          exact hdata.2.1
    have hreg : (c.withQueue { c.send.retransmission with
        currentRtoMs := c.send.retransmission.initialRtoMs }.clearTimer).registered = true :=
      h.registered
    obtain ⟨hwindow, wires, hsent, hloud⟩ := onRetransmit_sent cfg hreg segment .fast
    rw [he]
    exact ⟨hwindow, fun _ => ⟨wires, hsent, fun hl => hloud.mp hl hempty⟩⟩

/-- A duplicate acknowledgement is only counted while the window is open. -/
theorem Live.duplicate_hushed (h : Live cfg c) (turn : Turn) (seg : VMSegment)
    (windowChanged : Bool) :
    Hushed c (if c.isDuplicateAck seg windowChanged then c.noteDuplicateAck cfg turn seg.ackNum
      else c) := by
  have hwindow : (c.noteDuplicateAck cfg turn seg.ackNum).send.vmWindow = c.send.vmWindow := by
    have hcount : ∀ (c : Conn) (dupAckCount : Nat), Live cfg c →
        (({ c with send := { c.send with dupAckCount } } : Conn).fastRetransmit cfg
          turn).send.vmWindow = c.send.vmWindow := by
      intro c n hc
      have hcounted : ({ c with send := { c.send with dupAckCount := n } } : Conn).Sending cfg :=
        { hc.sending with }
      exact (fastRetransmit_evolves turn hcounted hc.registered).vmWindow
    unfold Conn.noteDuplicateAck
    dsimp only
    split
    · split
      · exact hcount c _ h
      · rfl
    · rfl
  split
  · rename_i hdup
    refine ⟨hwindow, fun hzero => ?_⟩
    simp [isDuplicateAck, hzero] at hdup
  · exact .refl c

theorem not_recovers_synSent (h : c.Sending cfg) (hs : c.state = .synSent) (seg : VMSegment) :
    ¬c.RecoversIntoClosedWindow seg := by
  rintro ⟨-, -, ⟨hdata, -⟩, -⟩
  refine hdata ?_
  have hall := congrArg (fun xs => (dataOf xs).length) (h.handshake hs)
  have htake := congrArg (fun xs => (dataOf xs).length)
    (List.take_append_drop (c.ackedItems seg.ackNum) c.stream.outstanding)
  simp only [State.history, dataOf_append, List.length_append] at hall htake
  have hzero : (dataOf [Item.syn]).length = 0 := rfl
  omega

/-- What `handleTCP` sends for a segment into a closed window. -/
theorem handleTCP_sends (h : Live cfg c) (hdir : c.direction = .outbound)
    (hok : c.handleTCP cfg turn seg = .ok c') : SegmentSends c seg c' := by
  unfold handleTCP at hok
  by_cases hsyn : (seg.syn && !seg.ack) = true
  · rw [if_pos hsyn] at hok
    obtain rfl := Except.ok.inj hok
    simp only [Bool.and_eq_true, Bool.not_eq_true'] at hsyn
    refine .hushed (fun hyes => ?_) ?_
    · exact absurd (hsyn.2.symm.trans hyes.1.1) Bool.false_ne_true
    · split
      · rename_i hs
        exact h.fastRetransmit_handshake hs turn
      · exact .refl c
  rw [if_neg hsyn] at hok
  by_cases hrst : seg.rst = true
  · rw [if_pos hrst] at hok
    obtain rfl := Except.ok.inj hok
    refine .hushed (fun hyes => absurd (hyes.1.2.1.symm.trans hrst) Bool.false_ne_true) ?_
    have hover := abort_givenUp cfg turn c false
    rw [abort, hdir] at hover
    exact .givenUp hover
  rw [if_neg hrst] at hok
  by_cases hack : seg.ack = true
  swap
  · rw [if_pos (by simpa using hack)] at hok
    exact .hushed (fun hyes => hack hyes.1.1) (handleTCPState_hushed h.toReady hdir hok)
  rw [if_neg (by simp [hack])] at hok
  obtain ⟨c₁, acked, he, hadv⟩ | ⟨q, status, he, hne, -, hq, hseg, hpersist, htimer, hnot⟩ :=
    acknowledge_spec h.sending seg.ackNum
  · rw [he] at hok
    obtain ⟨hready, -, hctx, -⟩ := h.advance seg.seqNum hadv seg.window
    have hread : seg.ack = true ∧ seg.rst = false ∧ (c.direction = .reverse → seg.syn = false) :=
      ⟨hack, by simpa using hrst, fun hd => by rw [hdir] at hd; cases hd⟩
    exact (hadv.sends hread).trans
      (handleTCPState_hushed hready ((congrArg Context.direction hctx).trans hdir) hok)
  · rw [he] at hok
    have hno : ¬c.RecoversIntoClosedWindow seg := fun hyes => hnot hyes.2.1
    dsimp only at hok
    split at hok
    · obtain rfl := Except.ok.inj hok
      exact .of_sent hno rfl
    obtain ⟨hlive, -, hctx, -⟩ :=
      h.duplicate seg.seqNum seg.ackNum hq hseg hpersist htimer seg.window
    obtain ⟨vmWindow, windowUpdate, hc₂, -⟩ :=
      updateTCPWindow_eq (c.withQueue q) seg.seqNum seg.ackNum seg.window
    generalize (c.withQueue q).updateTCPWindow seg.seqNum seg.ackNum seg.window.toNat = result
      at hok hlive hctx hc₂
    obtain ⟨c₂, windowChanged⟩ := result
    dsimp only at hok hlive hctx hc₂
    have hsent : c₂.sent = c.sent := by rw [hc₂]; rfl
    have hhush := hlive.duplicate_hushed turn seg windowChanged
    have hready : Ready cfg (if c₂.isDuplicateAck seg windowChanged
        then c₂.noteDuplicateAck cfg turn seg.ackNum else c₂) ∧
        (if c₂.isDuplicateAck seg windowChanged
          then c₂.noteDuplicateAck cfg turn seg.ackNum else c₂).direction = .outbound := by
      split
      · obtain ⟨hlive', -, hctx', -⟩ := hlive.noteDuplicateAck turn seg.ackNum
        exact ⟨hlive'.toReady, (congrArg Context.direction (hctx'.trans hctx)).trans hdir⟩
      · exact ⟨hlive.toReady, (congrArg Context.direction hctx).trans hdir⟩
    exact ((SegmentSends.of_sent hno hsent).trans hhush).trans
      (handleTCPState_hushed hready.1 hready.2 hok)

/-- The handshake of a reverse connection sends nothing with payload. -/
theorem handleReverseSynAck_sends (h : Live cfg c) (hdir : c.direction = .reverse)
    (hs : c.state = .synSent) (hok : c.handleReverseSynAck cfg turn seg = .ok c') :
    SegmentSends c seg c' := by
  have hno := not_recovers_synSent h.sending hs seg
  unfold handleReverseSynAck at hok
  obtain ⟨c₁, acked, he, hadv⟩ | ⟨q, status, he, hne, -⟩ := acknowledge_spec h.sending seg.ackNum
  · rw [he] at hok
    obtain ⟨-, hout⟩ := hadv.handshake h.sending hs
    dsimp only at hok
    rw [if_neg (by simp [hout])] at hok
    obtain ⟨hready, -, hctx⟩ := h.complete hdir hs hadv
    have hdir₂ : (c₁.completed cfg seg).direction = .reverse :=
      (congrArg Context.direction hctx).trans hdir
    have hp := sendTCPAck_passive cfg (c₁.completed cfg seg)
    have hsent : (c₁.completed cfg seg).sent = c.sent := by
      change c₁.sent = c.sent
      rw [hadv.rest]
    refine ((SegmentSends.of_sent hno hsent).trans (.passive hp)).trans
      ((hready.passive hp).trySend_hushed (fun hsyn => ?_)
        ((trySend_reverse (hp.direction.trans hdir₂)).trans hok))
    rw [hp.state] at hsyn
    cases hsyn
  · rw [he] at hok
    dsimp only at hok
    rw [if_pos (.inl hne)] at hok
    obtain rfl := Except.ok.inj hok
    exact .of_sent hno rfl

/-- The window change that ends the acknowledgement part runs the send loop. -/
theorem Live.windowChange_hushed (h : Live cfg c) (hdir : c.direction = .reverse)
    (hopen : c.state.isOpen = true) {windowChanged done : Bool}
    (hok : (if windowChanged then
        (({ c with send := { c.send with dupAckCount := 0 } } : Conn).trySendReverseToVM cfg
          turn).map fun c => (c, false)
      else .ok (c, false)) = .ok (c', done)) : Hushed c c' := by
  cases windowChanged with
  | false =>
      obtain rfl := (Prod.ext_iff.mp (Except.ok.inj hok)).1
      exact .refl c
  | true =>
      have hcounted : Hushed c { c with send := { c.send with dupAckCount := 0 } } :=
        .of_eq rfl rfl
      rw [if_pos rfl, ← trySend_reverse (c := { c with
        send := { c.send with dupAckCount := 0 } }) hdir] at hok
      cases hsend : ({ c with send := { c.send with dupAckCount := 0 } } : Conn).trySend cfg turn with
      | error thrown =>
          rw [hsend] at hok
          cases hok
      | ok c₁ =>
          rw [hsend] at hok
          obtain rfl := (Prod.ext_iff.mp (Except.ok.inj hok)).1
          exact hcounted.trans ((h.toReady.withDup 0).trySend_hushed
            (fun hs => absurd hs (not_synSent_of_isOpen hopen)) hsend)

/-- The acknowledgement part of `handleReverseTCP`. -/
theorem handleReverseTCPAck_sends (h : Live cfg c) (hdir : c.direction = .reverse)
    (hopen : c.state.isOpen = true)
    (hread : seg.ack = true ∧ seg.rst = false ∧ (c.direction = .reverse → seg.syn = false))
    {done : Bool} (hok : c.handleReverseTCPAck cfg turn seg = .ok (c', done)) :
    SegmentSends c seg c' := by
  unfold handleReverseTCPAck at hok
  obtain ⟨c₁, acked, he, hadv⟩ | ⟨q, status, he, hne, -, hq, hseg, hpersist, htimer, hnot⟩ :=
    acknowledge_spec h.sending seg.ackNum
  · rw [he] at hok
    obtain ⟨hready, -, hctx, hstate, -⟩ := h.advance seg.seqNum hadv seg.window
    have hsends := hadv.sends hread
    dsimp only at hok
    rw [if_neg (by simp), if_pos rfl] at hok
    generalize (c₁.updateTCPWindow seg.seqNum seg.ackNum seg.window.toNat).2 = windowChanged at hok
    generalize (c₁.updateTCPWindow seg.seqNum seg.ackNum seg.window.toNat).1.noteAdvancedAck cfg
      acked seg.ackNum = c₂ at hok hready hctx hstate hsends
    have hdir₂ := (congrArg Context.direction hctx).trans hdir
    have hopen₂ : c₂.state.isOpen = true := hstate ▸ hopen
    by_cases hboth : c₂.bothClosed = true
    · rw [if_pos hboth] at hok
      obtain rfl := (Prod.ext_iff.mp (Except.ok.inj hok)).1
      exact hsends.trans (finishReverseConnection_hushed c₂)
    · obtain ⟨c₃, hsend, hlive₃, hev₃, -⟩ := hready.trySend turn
        fun hs => absurd hs (not_synSent_of_isOpen hopen₂)
      have hhush := hready.trySend_hushed
        (fun hs => absurd hs (not_synSent_of_isOpen hopen₂)) hsend
      rw [if_neg hboth, ← trySend_reverse hdir₂, hsend] at hok
      exact (hsends.trans hhush).trans (hlive₃.windowChange_hushed (hev₃.direction.trans hdir₂)
        (hev₃.isOpen hopen₂) hok)
  · rw [he] at hok
    have hno : ¬c.RecoversIntoClosedWindow seg := fun hyes => hnot hyes.2.1
    dsimp only at hok
    by_cases hignored : status = .future ∨ status = .stale
    · rw [if_pos hignored] at hok
      obtain rfl := (Prod.ext_iff.mp (Except.ok.inj hok)).1
      exact .of_sent hno rfl
    rw [if_neg hignored, if_neg hne] at hok
    obtain ⟨hlive, -, hctx, hstate⟩ :=
      h.duplicate seg.seqNum seg.ackNum hq hseg hpersist htimer seg.window
    obtain ⟨vmWindow, windowUpdate, hc₂, -⟩ :=
      updateTCPWindow_eq (c.withQueue q) seg.seqNum seg.ackNum seg.window
    generalize (c.withQueue q).updateTCPWindow seg.seqNum seg.ackNum seg.window.toNat = result
      at hok hlive hctx hc₂ hstate
    obtain ⟨c₂, windowChanged⟩ := result
    dsimp only at hok hlive hctx hc₂ hstate
    have hsent : c₂.sent = c.sent := by rw [hc₂]; rfl
    have hhush := hlive.duplicate_hushed turn seg windowChanged
    have hdir₂ := (congrArg Context.direction hctx).trans hdir
    have hopen₂ : c₂.state.isOpen = true := hstate ▸ hopen
    by_cases hdup : c₂.isDuplicateAck seg windowChanged = true
    · rw [if_pos hdup] at hok hhush
      obtain ⟨hlive', -, hctx', hstate'⟩ := hlive.noteDuplicateAck turn seg.ackNum
      refine ((SegmentSends.of_sent hno hsent).trans hhush).trans (hlive'.windowChange_hushed
        ((congrArg Context.direction hctx').trans hdir₂) ?_ hok)
      rcases hstate' with he' | ⟨-, he'⟩
      · rw [he']
        exact hopen₂
      · rw [he']
        rfl
    · rw [if_neg hdup] at hok
      exact (SegmentSends.of_sent hno hsent).trans (hlive.windowChange_hushed hdir₂ hopen₂ hok)

/-- What `handleReverseTCP` sends, part by part. -/
theorem handleReverseTCP_sends (h : Live cfg c) (hdir : c.direction = .reverse)
    (hidle : c.idleTimer = true) (hok : c.handleReverseTCP cfg turn seg = .ok c') :
    SegmentSends c seg c' := by
  have hbump : ({ c with idleTimer := true } : Conn) = c := by rw [← hidle]
  unfold handleReverseTCP at hok
  rw [hbump] at hok
  dsimp only at hok
  by_cases hrst : seg.rst = true
  · rw [if_pos hrst] at hok
    obtain rfl := Except.ok.inj hok
    refine .hushed (fun hyes => absurd (hyes.1.2.1.symm.trans hrst) Bool.false_ne_true) ?_
    have hover := abort_givenUp cfg turn c false
    rw [abort, hdir] at hover
    exact .givenUp hover
  rw [if_neg hrst] at hok
  by_cases hs : c.state = .synSent
  · rw [if_pos hs] at hok
    split at hok
    · exact handleReverseSynAck_sends h hdir hs hok
    · obtain rfl := Except.ok.inj hok
      exact .of_sent (not_recovers_synSent h.sending hs seg) rfl
  rw [if_neg hs] at hok
  by_cases hsynAck : (seg.syn && seg.ack) = true
  · rw [if_pos hsynAck] at hok
    obtain rfl := Except.ok.inj hok
    simp only [Bool.and_eq_true] at hsynAck
    exact .hushed (fun hyes => absurd ((hyes.1.2.2 hdir).symm.trans hsynAck.1) Bool.false_ne_true)
      (.passive (sendTCPAck_passive cfg c))
  rw [if_neg hsynAck, if_neg (by simp [h.isOpen hs])] at hok
  by_cases hack : seg.ack = true
  swap
  · rw [if_pos (by simpa using hack)] at hok
    obtain rfl := Except.ok.inj hok
    exact .hushed (fun hyes => hack hyes.1.1) (handleReverseTCPData_hushed cfg turn c seg)
  rw [if_neg (by simp [hack])] at hok
  have hread : seg.ack = true ∧ seg.rst = false ∧ (c.direction = .reverse → seg.syn = false) :=
    ⟨hack, by simpa using hrst, fun _ => by simpa [hack] using hsynAck⟩
  cases hpart : c.handleReverseTCPAck cfg turn seg with
  | error thrown =>
      rw [hpart] at hok
      cases hok
  | ok result =>
      obtain ⟨c₁, done⟩ := result
      have hsends := handleReverseTCPAck_sends h hdir (h.isOpen hs) hread hpart
      rw [hpart] at hok
      cases done with
      | true =>
          obtain rfl := Except.ok.inj hok
          exact hsends
      | false =>
          obtain rfl := Except.ok.inj hok
          exact hsends.trans (handleReverseTCPData_hushed cfg turn c₁ seg)

/-- Either handler, for any segment. -/
theorem onSegment_sends (h : Live cfg c) (hok : c.onSegment cfg turn seg = .ok c') :
    SegmentSends c seg c' := by
  unfold onSegment at hok
  cases hdir : c.direction with
  | outbound =>
      rw [hdir] at hok
      exact handleTCP_sends h hdir hok
  | reverse =>
      rw [hdir] at hok
      have hsends := handleReverseTCP_sends (h.withIdleTimer true) hdir rfl hok
      have hsame : ({ c with idleTimer := true } : Conn).RecoversIntoClosedWindow seg ↔
          c.RecoversIntoClosedWindow seg := by
        unfold RecoversIntoClosedWindow
        rw [updateTCPWindow_congr c { c with idleTimer := true } rfl rfl]
        rfl
      exact ⟨fun hyes => hsends.closed (hsame.mpr hyes), fun hw => by
        rw [← hsame]
        exact hsends.sent hw⟩

/-- The timer finds a closed window, but not the persist mode. -/
def TimesOutIntoClosedWindow (c : Conn) (generation : Nat) : Prop :=
  c.send.vmWindow = 0 ∧ generation = c.send.retransmission.timerGeneration ∧
    c.send.retransmission.persist = false ∧
    c.send.retransmission.timeoutRetransmissions < c.send.retransmission.maxRetransmissions ∧
    ∃ segment, c.send.retransmission.oldest = some segment ∧ segment.payload ≠ []

/-- Such a timeout repeats the whole oldest segment. -/
theorem Live.timeout_loud (h : Live cfg c) {generation : Nat}
    (hover : c.TimesOutIntoClosedWindow generation) (turn : Turn) :
    (c.fireRetransmissionTimer cfg turn generation).send.vmWindow = 0 ∧
    ∃ wires, (c.fireRetransmissionTimer cfg turn generation).sent = c.sent ++ wires ∧
      Loud wires := by
  obtain ⟨hwindow, rfl, hpersist, hbudget, segment, hold, hpayload⟩ := hover
  rw [fireRetransmissionTimer_live cfg turn h.sending.opened h.sending.live]
  have hstart : (c.timerStarted c.send.retransmission.timerGeneration).onTimeout cfg turn =
      (c.timerStarted c.send.retransmission.timerGeneration).retransmitOldest cfg segment := by
    unfold onTimeout
    have hp : (c.timerStarted c.send.retransmission.timerGeneration).send.retransmission.persist =
      false := hpersist
    have ho : (c.timerStarted c.send.retransmission.timerGeneration).send.retransmission.oldest =
      some segment := hold
    simp only [hp, ho, Bool.false_eq_true, if_false]
    exact if_neg (Nat.not_le_of_lt hbudget)
  rw [hstart]
  unfold retransmitOldest
  have hreg : ((c.timerStarted c.send.retransmission.timerGeneration).withQueue
      { (c.timerStarted c.send.retransmission.timerGeneration).send.retransmission.countTimeout with
        segments := RetransmissionQueue.countRetransmission
          (c.timerStarted c.send.retransmission.timerGeneration).send.retransmission.segments
      }).registered = true := h.registered
  obtain ⟨hstays, wires, hsent, hloud⟩ := onRetransmit_sent cfg hreg
    { segment with retransmissions := segment.retransmissions + 1 } .timeout
  exact ⟨hstays.trans hwindow, wires, hsent, hloud.mpr hpayload⟩

/-- The step sends more into the closed window than a probe may. -/
def Overruns (c : Conn) (label : Turn × Event) : Prop :=
  match label.2 with
  | .segment seg => c.RecoversIntoClosedWindow seg
  | .retransmissionTimer generation => c.TimesOutIntoClosedWindow generation
  | _ => False

section Decide

variable (c : Conn)

instance (ackedDataBytes : Nat) (ackNum : Seq) : Decidable (c.Recovers ackedDataBytes ackNum) :=
  inferInstanceAs (Decidable (_ ∧ ∃ recoveryUntil ∈ c.send.congestionRecoveryUntil, _))

instance (ackNum : Seq) : Decidable (c.Acceptable ackNum) :=
  inferInstanceAs (Decidable (_ ≤ _))

instance (seg : VMSegment) : Decidable (c.RecoversIntoClosedWindow seg) :=
  inferInstanceAs (Decidable (_ ∧ _ ∧ _ ∧
    (∃ item ∈ (c.stream.outstanding.drop (c.ackedItems seg.ackNum)).head?, item.isByte = true) ∧
    _))

instance (generation : Nat) : Decidable (c.TimesOutIntoClosedWindow generation) :=
  inferInstanceAs (Decidable (_ ∧ _ ∧ _ ∧ _ ∧ ∃ segment ∈ c.send.retransmission.oldest, _))

instance (label : Turn × Event) : Decidable (c.Overruns label) :=
  match label with
  | (_, .segment seg) => inferInstanceAs (Decidable (c.RecoversIntoClosedWindow seg))
  | (_, .retransmissionTimer generation) =>
    inferInstanceAs (Decidable (c.TimesOutIntoClosedWindow generation))
  | (_, .sourceData _) | (_, .sourceEnd) | (_, .localClose) | (_, .endpointError)
  | (_, .sinkDrain) | (_, .sinkEnd) | (_, .pacerTimer) | (_, .ackTimer) | (_, .idleTimer)
  | (_, .removalTimer) | (_, .rateRetry) | (_, .immediate) | (_, .staleResume)
  | (_, .transportFlush) | (_, .otherTraffic _) => inferInstanceAs (Decidable False)

end Decide

/-- While the window is closed, every segment with payload is a one-byte probe
of the persist timer, at the oldest unacknowledged number. -/
def Disciplined (c : Conn) (label : Turn × Event) (c' : Conn) : Prop :=
  c'.send.vmWindow = 0 → ∀ wire ∈ c'.sent.drop c.sent.length, wire.payload ≠ [] →
    (∃ generation, label.2 = .retransmissionTimer generation) ∧
      c.send.retransmission.persist = true ∧ wire.payload.length = 1 ∧
      wire.sequence = c.send.retransmission.sndUna

theorem disciplined_of_silent {label : Turn × Event} {wires : List WireSegment}
    (hsent : c'.sent = c.sent ++ wires) (hsilent : ¬Loud wires) : c.Disciplined label c' := by
  intro _ wire hmem hpayload
  rw [hsent, List.drop_left] at hmem
  exact absurd ⟨wire, hmem, hpayload⟩ hsilent

/-- A callback of a live connection is disciplined exactly if it does not
overrun. -/
theorem Live.disciplined_iff {label : Turn × Event} (h : Live cfg c)
    (hstep : Step cfg c label c') : c.Disciplined label c' ↔ ¬c.Overruns label := by
  obtain ⟨turn, event⟩ := label
  obtain ⟨⟨-, hcan⟩, hok⟩ := hstep
  by_cases hseg : ∃ seg, event = .segment seg
  · obtain ⟨seg, rfl⟩ := hseg
    have hsends := onSegment_sends h hok
    constructor
    · intro hdisciplined hover
      have hzero := hsends.closed hover
      obtain ⟨wires, hsent, hloud⟩ := hsends.sent hzero
      obtain ⟨wire, hmem, hpayload⟩ := hloud.mpr hover
      obtain ⟨⟨generation, hevent⟩, -⟩ := hdisciplined hzero wire
        (by rwa [hsent, List.drop_left]) hpayload
      cases hevent
    · intro hno hzero
      obtain ⟨wires, hsent, hloud⟩ := hsends.sent hzero
      exact disciplined_of_silent hsent (fun hl => hno (hloud.mp hl)) hzero
  obtain ⟨d, hd, hcalled⟩ := h.calledBack (fun _ _ => True) turn hcan
    (fun _ _ _ => trivial) (fun _ _ _ => trivial) fun seg he => hseg ⟨seg, he⟩
  obtain rfl := Except.ok.inj (hok.symm.trans hd)
  by_cases htimer : ∃ generation, event = .retransmissionTimer generation
  swap
  · have hno : ¬c.Overruns (turn, event) := by
      cases event with
      | segment seg => exact absurd ⟨seg, rfl⟩ hseg
      | retransmissionTimer generation => exact absurd ⟨generation, rfl⟩ htimer
      | _ => exact id
    refine iff_of_true (fun hzero => ?_) hno
    obtain ⟨wires, hsent, hsilent | ⟨hevent, -⟩⟩ := hcalled.sent (hcalled.window.symm.trans hzero)
    · exact disciplined_of_silent hsent (not_loud hsilent) hzero
    · exact absurd hevent htimer
  obtain ⟨generation, rfl⟩ := htimer
  obtain rfl := Except.ok.inj hok
  constructor
  · intro hdisciplined hover
    obtain ⟨hzero, wires, hsent, wire, hmem, hpayload⟩ := h.timeout_loud hover turn
    have hpersist := (hdisciplined hzero wire (by rwa [hsent, List.drop_left]) hpayload).2.1
    rw [hover.2.2.1] at hpersist
    cases hpersist
  · intro hno hzero
    by_cases hcurrent : generation = c.send.retransmission.timerGeneration
    swap
    · have hsent : (c.fireRetransmissionTimer cfg turn generation).sent = c.sent ++ [] := by
        rw [fireRetransmissionTimer_superseded cfg turn (.inl hcurrent)]
        simp
      exact disciplined_of_silent hsent not_loud_nil hzero
    have hclosed : c.send.vmWindow = 0 := hcalled.window.symm.trans hzero
    obtain ⟨wires, hsent, hsilent | ⟨-, hfires⟩⟩ := hcalled.sent hclosed
    · exact disciplined_of_silent hsent (not_loud hsilent) hzero
    intro wire hmem hpayload
    rw [hsent, List.drop_left] at hmem
    cases hfires with
    | nothing => cases hmem
    | probe persist short sequence =>
        obtain rfl := List.mem_singleton.mp hmem
        refine ⟨⟨generation, rfl⟩, persist, ?_, sequence⟩
        have := List.length_pos_iff.mpr hpayload
        omega
    | @again _ segment persist oldest budget empty =>
        refine absurd ⟨hclosed, hcurrent, persist, budget, segment, oldest, fun hnil => ?_⟩ hno
        exact hpayload (empty hnil wire hmem)

/-- A connection that is closed has nothing outstanding, so nothing overruns. -/
theorem Finished.not_overruns (h : Finished cfg c) (label : Turn × Event) : ¬c.Overruns label := by
  obtain ⟨turn, event⟩ := label
  cases event with
  | segment seg =>
      rintro ⟨-, ⟨hpos, haccept⟩, -⟩
      have hnone : c.stream.outstanding = [] := by
        change segmentItems c.send.retransmission.segments = []
        rw [h.segments]
        rfl
      rw [Acceptable, hnone, List.length_nil] at haccept
      omega
  | retransmissionTimer generation =>
      rintro ⟨-, -, -, -, segment, hold, -⟩
      simp [RetransmissionQueue.oldest, h.segments] at hold
  | _ => exact id

/-- A step of a reachable connection is disciplined exactly if it does not
overrun. -/
theorem Inv.disciplined_iff {label : Turn × Event} (h : Inv cfg c)
    (hstep : Step cfg c label c') : c.Disciplined label c' ↔ ¬c.Overruns label := by
  rcases h hstep.1.1 with hlive | hfinished
  · exact hlive.disciplined_iff hstep
  · obtain ⟨d, hd, -, ⟨wires, hsent, hsilent⟩, -⟩ := hfinished.handle label.1 hstep.1.2
    obtain rfl := Except.ok.inj (hstep.2.symm.trans hd)
    exact iff_of_true (disciplined_of_silent hsent (not_loud hsilent)) (hfinished.not_overruns label)

/-- A run keeps to the closed window in every step exactly if none of its steps
overruns. -/
theorem run_disciplined_iff {c₀ : Conn} {labels : List (Turn × Event)} (hopen : Opened cfg c₀) :
    Run (fun c label c' => Step cfg c label c' ∧ c.Disciplined label c') c₀ labels c ↔
      Run (Restrict (Step cfg) fun c label => ¬c.Overruns label) c₀ labels c := by
  constructor
  · intro hrun
    induction hrun with
    | nil => exact .nil _
    | snoc _ hlast ih =>
        exact .snoc ih ⟨((hopen.inv.of_run ih.unrestrict).disciplined_iff hlast.1).mp hlast.2,
          hlast.1⟩
  · intro hrun
    induction hrun with
    | nil => exact .nil _
    | snoc hbefore hlast ih =>
        exact .snoc ih ⟨hlast.2, ((hopen.inv.of_run hbefore.unrestrict).disciplined_iff
          hlast.2).mpr hlast.1⟩

/-- An upload whose window the VM closes: the persist timer sends one byte. -/
theorem run_disciplined_probe :
    ∃ c : Conn, Run (fun c label c' => Step {} c label c' ∧ c.Disciplined label c') exampleReverse
      [({}, .segment exampleSynAck), ({}, .sourceData [1, 2, 3]),
        ({}, .segment { seqNum := 100#32, ackNum := 8#32, ack := true }),
        ({}, .retransmissionTimer 5)] c ∧
      c.send.vmWindow = 0 ∧ (c.sent.map WireSegment.payload) = [[], [], [1, 2, 3], [1]] := by
  obtain ⟨c, hrun, hc⟩ := exists_restricted_run {} (fun c label => ¬c.Overruns label)
    exampleReverse [({}, .segment exampleSynAck), ({}, .sourceData [1, 2, 3]),
      ({}, .segment { seqNum := 100#32, ackNum := 8#32, ack := true }),
      ({}, .retransmissionTimer 5)]
    (fun c => c.send.vmWindow = 0 && c.sent.map WireSegment.payload = [[], [], [1, 2, 3], [1]])
    (by decide)
  simp only [Bool.and_eq_true, decide_eq_true_eq] at hc
  exact ⟨c, (run_disciplined_iff opened_exampleReverse).mpr hrun, hc⟩

/-- Two bytes leave into the closed window: as the recovery head, when a partial
acknowledgement closes the window, and after a timeout, when the pacer has kept
the send loop from switching to persist mode. -/
theorem two_bytes_into_closed_window :
    (∃ c c' : Conn, Reachable {} c ∧
      Step {} c ({}, .segment { seqNum := 100#32, ackNum := 9#32, ack := true }) c' ∧
      c'.send.vmWindow = 0 ∧ (c'.sent.drop c.sent.length).map WireSegment.payload = [[2, 3]] ∧
      ¬c.Disciplined ({}, .segment { seqNum := 100#32, ackNum := 9#32, ack := true }) c') ∧
    ∃ c c' : Conn, Reachable {} c ∧ Step {} c ({}, .retransmissionTimer 3) c' ∧
      c'.send.vmWindow = 0 ∧ (c'.sent.drop c.sent.length).map WireSegment.payload = [[1, 2]] ∧
      ¬c.Disciplined ({}, .retransmissionTimer 3) c' := by
  -- A step that sends two bytes while the window is closed is not disciplined.
  have hbroken : ∀ (labels : List (Turn × Event)) (event : Event) (bytes : Bytes),
      2 ≤ bytes.length →
      (exampleReverse.execute {} (fun _ _ => True) labels).any (fun c =>
        c.Enabled event && (c.handle {} {} event).toOption.any fun c' =>
          c'.send.vmWindow = 0 &&
            (c'.sent.drop c.sent.length).map WireSegment.payload = [bytes]) = true →
      ∃ c c' : Conn, Reachable {} c ∧ Step {} c ({}, event) c' ∧ c'.send.vmWindow = 0 ∧
        (c'.sent.drop c.sent.length).map WireSegment.payload = [bytes] ∧
        ¬c.Disciplined ({}, event) c' := by
    intro labels event bytes hlong hany
    obtain ⟨c, hrun, hc⟩ := exists_run {} exampleReverse labels _ hany
    simp only [Bool.and_eq_true, decide_eq_true_eq] at hc
    obtain ⟨henabled, hafter⟩ := hc
    cases hok : c.handle {} {} event with
    | error thrown =>
        rw [hok] at hafter
        cases hafter
    | ok c' =>
        rw [hok] at hafter
        simp only [Except.toOption, Option.any_some, Bool.and_eq_true, decide_eq_true_eq] at hafter
        obtain ⟨hzero, hsent⟩ := hafter
        refine ⟨c, c', ⟨_, opened_exampleReverse, _, hrun⟩, ⟨henabled, hok⟩, hzero, hsent,
          fun hdisciplined => ?_⟩
        obtain ⟨wire, hwire, hpayload⟩ := List.mem_map.mp (hsent ▸ List.mem_singleton_self bytes)
        have hshort := (hdisciplined hzero wire hwire (by
          rw [hpayload]
          rintro rfl
          cases hlong)).2.2.1
        rw [hpayload] at hshort
        omega
  exact ⟨hbroken [({}, .segment exampleSynAck), ({}, .sourceData [1]), ({}, .sourceData [2, 3]),
      ({}, .retransmissionTimer 3)] _ [2, 3] (by decide) (by decide),
    hbroken [({}, .segment exampleSynAck), ({}, .sourceData [1, 2]), ({}, .sourceData [3]),
      ({}, .sourceData [4]), ({}, .segment { seqNum := 100#32, ackNum := 8#32, ack := true })] _
      [1, 2] (by decide) (by decide)⟩

end Conn

end RootlessRelay
