import RootlessRelay.Tcp.Invariant

/-!
# Handling a segment of a live connection

`Received` lists the ways `handleTCP` and `handleReverseTCP` can take with a
segment: the connection ends, the segment has no effect on the receiving side,
or its payload and FIN are processed on a connection that is live. Neither
handler throws on a live connection.

The handlers are followed in the parts in which they are modelled: the
acknowledgement, the change of state it causes, the run of the send loop, then
payload and FIN. Each part has one lemma that takes `Live` or `Ready` to the
same again, and `onSegment_spec` puts them together.
-/

namespace RootlessRelay

open SequenceSpace Transition SendStream

namespace Conn

variable {cfg : Settings} {turn : Turn} {c c' c'' : Conn} {seg : VMSegment}

/-- The payload and FIN parts of the connection's handler, whichever of the two
it is. -/
def handleData (cfg : Settings) (turn : Turn) (c : Conn) (seg : VMSegment) : Conn :=
  match c.direction with
  | .outbound => c.handleTCPData cfg turn seg
  | .reverse => c.handleReverseTCPData cfg turn seg

/-- What a handler makes of a segment, by the place at which it returns. -/
inductive Received (cfg : Settings) (turn : Turn) (c : Conn) (seg : VMSegment) : Conn → Prop
  /-- A reset, or the last acknowledgement of a connection both sides have
  closed. -/
  | ended {c' : Conn} (gone : c'.registered = false ∨ Finished cfg c')
      (delivered : c'.recv.core.delivered = c.recv.core.delivered)
      (reason : seg.rst = true ∨ c.recv.peerFin = true) : Received cfg turn c seg c'
  /-- The handler returns before it looks at the payload. -/
  | idle {c' : Conn} (live : Live cfg c') (moves : Moves Proper c c')
      (context : c'.context = c.context)
      (stays : c'.state = .synSent → c.state = .synSent)
      (reason : c.state.isOpen = true →
        seg.syn = true ∨ seg.ack = true ∧ ¬c.Acceptable seg.ackNum) : Received cfg turn c seg c'
  /-- The SYN-ACK that opens a reverse connection. -/
  | handshake {c' : Conn} (live : Live cfg c') (moves : Moves Proper c c')
      (start : c.state = .synSent ∧ c.direction = .reverse) (syn : seg.syn = true)
      (context : c'.context =
        { c.context with recv := { c.recv.core with vmSeq := seg.seqNum + 1 } }) :
      Received cfg turn c seg c'
  /-- Payload and FIN are processed. -/
  | data {c₁ : Conn} (live : Live cfg c₁) (moves : Moves Proper c c₁)
      (context : c₁.context = c.context) (isOpen : c₁.state.isOpen = true)
      (reason : seg.ack = true → c.Acceptable seg.ackNum)
      (past : c.state = .synSent → c.direction = .outbound) :
      Received cfg turn c seg (c₁.handleData cfg turn seg)

/-- An aborted connection has left the map, also when it had left it before. -/
theorem abort_registered (cfg : Settings) (turn : Turn) (c : Conn) (sendReset : Bool) :
    (c.abort cfg turn sendReset).registered = false := by
  unfold abort abortTCPConnection abortReverseConnection
  cases hreg : c.registered
  · cases c.direction <;> simp [hreg]
  · cases c.direction
    · simp only [Bool.not_true, Bool.false_eq_true, if_false]
      split
      · rw [sendTCP_control cfg (.inr rfl)]
        rfl
      · rfl
    · rfl

theorem abortTCPConnection_registered (turn : Turn) (hdir : c.direction = .outbound)
    (sendReset : Bool) : (c.abortTCPConnection cfg turn sendReset).registered = false := by
  have := abort_registered cfg turn c sendReset
  rwa [abort, hdir] at this

theorem abortReverseConnection_registered (turn : Turn) (hdir : c.direction = .reverse)
    (sendReset : Bool) : (c.abortReverseConnection cfg turn sendReset).registered = false := by
  have := abort_registered cfg turn c sendReset
  rwa [abort, hdir] at this

theorem finishReverseConnection_registered (c : Conn) :
    c.finishReverseConnection.registered = false := by
  unfold finishReverseConnection
  split
  · simp_all
  · rfl

/-- Ending a connection delivers nothing to the sink and takes nothing back. -/
theorem abortTCPConnection_delivered (turn : Turn) (c : Conn) (sendReset : Bool) :
    (c.abortTCPConnection cfg turn sendReset).recv.core.delivered = c.recv.core.delivered := by
  unfold abortTCPConnection
  split
  · rfl
  · dsimp only
    split
    · rw [sendTCP_control cfg (.inr rfl)]
      rfl
    · rfl

theorem abortReverseConnection_delivered (turn : Turn) (c : Conn) (sendReset : Bool) :
    (c.abortReverseConnection cfg turn sendReset).recv.core.delivered =
      c.recv.core.delivered := by
  unfold abortReverseConnection
  split
  · rfl
  · dsimp only
    split
    · rw [sendTCP_control cfg (.inr rfl)]
      rfl
    · rfl

theorem abort_delivered (turn : Turn) (c : Conn) (sendReset : Bool) :
    (c.abort cfg turn sendReset).recv.core.delivered = c.recv.core.delivered := by
  unfold abort
  split
  · exact abortTCPConnection_delivered turn c sendReset
  · exact abortReverseConnection_delivered turn c sendReset

theorem finishTCPConnection_delivered (c : Conn) :
    c.finishTCPConnection.recv.core.delivered = c.recv.core.delivered := by
  unfold finishTCPConnection
  split <;> rfl

theorem finishReverseConnection_delivered (c : Conn) :
    c.finishReverseConnection.recv.core.delivered = c.recv.core.delivered := by
  unfold finishReverseConnection
  split <;> rfl

/-- Where an outbound connection has sent its FIN, nothing is left to send and
no FIN is waiting. -/
theorem Ready.nothing_left (h : Ready cfg c) (hdir : c.direction = .outbound)
    (hfin : c.send.finSent = true) :
    c.send.sendQueue = [] ∧ c.send.pendingFin = false ∧ c.send.sourceEnded = true := by
  obtain ⟨hlocal, hlast⟩ := h.outbound hdir
  have hbudget := h.sending.finBudget
  have hcount : 0 < c.stream.history.count .fin :=
    List.count_pos_iff.mpr (h.sending.finTracked.mpr hfin)
  rw [hlocal] at hbudget
  refine ⟨?_, ?_, ?_⟩
  · have hempty : c.send.sendQueue.flatten = [] := (hlast.finished hfin).1
    exact eq_nil_of_flatten_eq_nil h.sending.chunks hempty
  · cases hp : c.send.pendingFin with
    | false => rfl
    | true =>
        have := c.send.sourceEnded.toNat_le
        simp only [hp, Bool.toNat_true, Bool.toNat_false] at hbudget
        omega
  · cases hs : c.send.sourceEnded with
    | true => rfl
    | false =>
        simp only [hs, Bool.toNat_false] at hbudget
        omega

/-- Closing the queue stops its timer and leaves the numbers alone. -/
theorem close_eq {q : RetransmissionQueue} (hopen : q.closed = false) :
    q.close.sndNxt = q.sndNxt ∧ q.close.sndUna = q.sndUna ∧ q.close.segments = [] ∧
      q.close.payloadBytesInFlight = 0 := by
  unfold RetransmissionQueue.close
  rw [if_neg (by simp [hopen])]
  exact ⟨rfl, rfl, rfl, rfl⟩

/-- An outbound connection is finished when its FIN has been acknowledged. -/
theorem Ready.finish (h : Ready cfg c) (hdir : c.direction = .outbound)
    (hfin : c.send.finSent = true) (hout : c.send.retransmission.hasOutstanding = false) :
    Finished cfg c.finishTCPConnection := by
  obtain ⟨hqueue, hpending, hended⟩ := h.nothing_left hdir hfin
  have hseg : c.send.retransmission.segments = [] := by
    simpa [RetransmissionQueue.hasOutstanding] using hout
  have hnxt : c.send.retransmission.sndNxt = c.send.retransmission.sndUna := by
    rw [h.sending.tracked.next]
    simp [RetransmissionQueue.items, hseg]
  obtain ⟨hcloseNxt, hcloseUna, hcloseSegments, hcloseIdle⟩ := close_eq h.sending.opened
  unfold finishTCPConnection
  rw [if_neg (by simp [h.registered])]
  exact {
    registered := h.registered
    direction := hdir
    state := rfl
    closed := RetransmissionQueue.close_closed _
    drained := by
      change c.send.retransmission.close.sndNxt = c.send.retransmission.close.sndUna
      rw [hcloseNxt, hcloseUna, hnxt]
    segments := hcloseSegments
    idle := hcloseIdle
    cwnd := h.sending.cwnd
    empty := hqueue
    noFin := hpending
    stopped := h.stopped
    sourceEnded := hended }

theorem bothClosed_iff (c : Conn) : c.bothClosed = true ↔
    c.recv.peerFin = true ∧ c.send.finSent = true ∧
      c.send.retransmission.hasOutstanding = false := by
  simp [bothClosed, and_assoc]

theorem trySend_outbound (hdir : c.direction = .outbound) :
    c.trySend cfg turn = c.trySendToVM cfg turn := by
  rw [trySend, hdir]

theorem trySend_reverse (hdir : c.direction = .reverse) :
    c.trySend cfg turn = c.trySendReverseToVM cfg turn := by
  rw [trySend, hdir]

theorem Evolves.isOpen (h : Evolves cfg c c') (hopen : c.state.isOpen = true) :
    c'.state.isOpen = true := by
  rcases h.state with he | ⟨-, he⟩
  · rwa [he]
  · rw [he]
    rfl

theorem not_synSent_of_isOpen (hopen : c.state.isOpen = true) : c.state ≠ .synSent := by
  intro hs
  rw [hs] at hopen
  cases hopen

theorem Live.isOpen (h : Live cfg c) (hs : c.state ≠ .synSent) : c.state.isOpen = true := by
  have := h.sending.notClosed
  cases hst : c.state <;> simp_all [ConnState.isOpen]

/-- The count of duplicate acknowledgements is in no invariant. -/
theorem Ready.withDup (h : Ready cfg c) (dupAckCount : Nat) :
    Ready cfg { c with send := { c.send with dupAckCount } } :=
  h.of_eq_send { h.sending with } rfl rfl h.timer h.stopped

/-- The established part: finish, or send what the acknowledgement allows and
process the payload. Without progress the connection has to be live already. -/
theorem handleTCPEstablished_spec (turn : Turn) (seg : VMSegment) (h : Ready cfg c)
    (hdir : c.direction = .outbound)
    (hopen : c.state.isOpen = true) (progress windowChanged : Bool)
    (hlive : progress = false → Live cfg c) :
    ∃ c', c.handleTCPEstablished cfg turn seg progress windowChanged = .ok c' ∧
      (Finished cfg c' ∧ c.recv.peerFin = true ∧
          c'.recv.core.delivered = c.recv.core.delivered ∨
        ∃ c₁, c' = c₁.handleData cfg turn seg ∧ Live cfg c₁ ∧ Moves Proper c c₁ ∧
          c₁.context = c.context ∧ c₁.state.isOpen = true) := by
  unfold handleTCPEstablished
  rw [if_neg (by simp [hopen])]
  cases progress with
  | false =>
      simp only [Bool.false_and, Bool.false_eq_true, if_false]
      refine ⟨_, rfl, .inr ⟨c, ?_, hlive rfl, .refl _, rfl, hopen⟩⟩
      rw [handleData, hdir]
  | true =>
      simp only [Bool.true_and, if_true]
      split
      · rename_i hboth
        obtain ⟨hpeer, hfin, hout⟩ := (bothClosed_iff c).mp hboth
        exact ⟨_, rfl, .inl ⟨h.finish hdir hfin hout, hpeer, finishTCPConnection_delivered c⟩⟩
      · have hready : Ready cfg (if windowChanged then
            { c with send := { c.send with dupAckCount := 0 } } else c) := by
          split
          · exact h.withDup 0
          · exact h
        have hfields : (if windowChanged then { c with send := { c.send with dupAckCount := 0 } }
            else c).direction = c.direction ∧
            (if windowChanged then { c with send := { c.send with dupAckCount := 0 } }
              else c).state = c.state ∧
            (if windowChanged then { c with send := { c.send with dupAckCount := 0 } }
              else c).stream = c.stream ∧
            (if windowChanged then { c with send := { c.send with dupAckCount := 0 } }
              else c).context = c.context := by
          split <;> exact ⟨rfl, rfl, rfl, rfl⟩
        generalize (if windowChanged then { c with send := { c.send with dupAckCount := 0 } }
          else c) = c₀ at hready hfields
        obtain ⟨hd, hs, hstream, hcontext⟩ := hfields
        obtain ⟨c₁, hok, hlive₁, hev, -⟩ := hready.trySend turn
          fun hsyn => absurd (hs.symm.trans hsyn) (not_synSent_of_isOpen hopen)
        rw [← trySend_outbound (hd.trans hdir), hok]
        refine ⟨_, rfl, .inr ⟨c₁, ?_, hlive₁, ?_, hev.context.trans hcontext,
          hev.isOpen (by rw [hs]; exact hopen)⟩⟩
        · rw [handleData, hev.direction, hd, hdir]
        · rw [Moves, ← hstream]
          exact hev.moves

theorem Moves.trans {allowed : State Item Byte → Action Byte → Prop} {c'' : Conn}
    (h : Moves allowed c c') (h' : Moves allowed c' c'') : Moves allowed c c'' :=
  Reaches.trans h h'

/-- A change of state out of the handshake, once the SYN is acknowledged. -/
theorem Ready.withState (h : Ready cfg c) (state : ConnState) (hwindow : c.send.vmWindow ≤ 65535)
    (hacked : c.stream.acknowledged ≠ []) (hsyn : state ≠ .synSent) (hclosed : state ≠ .closed) :
    Ready cfg { c with state } :=
  h.of_eq_send (h.sending.withState hwindow hacked hsyn hclosed) rfl rfl h.timer h.stopped

/-- With nothing outstanding the SYN has been acknowledged, and the handshake is
over. -/
theorem Ready.establish (h : Ready cfg c) (hdir : c.direction = .outbound)
    (hs : c.state = .synSent) (hout : c.send.retransmission.hasOutstanding = false) :
    Ready cfg { c with state := .established } := by
  refine h.withState .established (h.sending.window (.inl hdir)) (fun hnil => ?_) nofun nofun
  have hitems : c.stream.outstanding = [] := by
    have hseg : c.send.retransmission.segments = [] := by
      simpa [RetransmissionQueue.hasOutstanding] using hout
    simp [stream, RetransmissionQueue.items, hseg]
  have hhistory := h.sending.handshake hs
  rw [State.history, hnil, hitems] at hhistory
  cases hhistory

theorem Moves.of_stream {allowed : State Item Byte → Action Byte → Prop}
    (h : c'.stream = c.stream) : Moves allowed c c' := by
  rw [Moves, h]
  exact .refl _

/-- The state part of `handleTCP`, for an acknowledgement that advanced. -/
theorem handleTCPState_advanced (turn : Turn) (seg : VMSegment) (h : Ready cfg c)
    (hdir : c.direction = .outbound)
    (hsyn : c.state = .synSent → c.send.retransmission.hasOutstanding = false)
    (windowChanged : Bool) :
    ∃ c', c.handleTCPState cfg turn seg (some .advanced) windowChanged = .ok c' ∧
      (Finished cfg c' ∧ c.recv.peerFin = true ∧
          c'.recv.core.delivered = c.recv.core.delivered ∨
        ∃ c₁, c' = c₁.handleData cfg turn seg ∧ Live cfg c₁ ∧ Moves Proper c c₁ ∧
          c₁.context = c.context ∧ c₁.state.isOpen = true) := by
  unfold handleTCPState
  by_cases hs : c.state = .synSent
  · rw [if_pos hs, if_neg (by simp [hsyn hs])]
    have hopened : Ready cfg { c with state := .established } :=
      h.establish hdir hs (hsyn hs)
    have hp := sendTCPAck_passive cfg { c with state := .established }
    have hcontext := hp.context (sendTCPAck_core cfg _)
    have hstream : (({ c with state := .established }).sendTCPAck cfg).stream = c.stream := by
      rw [stream, hp.send]
      rfl
    obtain ⟨c', hok, hcases⟩ := handleTCPEstablished_spec turn seg
      (hopened.passive hp) (hp.direction.trans hdir) (by rw [hp.state]; rfl)
      true windowChanged (by rintro ⟨⟩)
    refine ⟨c', hok, ?_⟩
    have hcore := sendTCPAck_core cfg { c with state := .established }
    rcases hcases with ⟨hfin, hpeer, hdel⟩ | ⟨c₁, hc', hlive, hmoves, hctx, hopen⟩
    · exact .inl ⟨hfin, (congrArg ReceiveCore.peerFin hcore).symm.trans hpeer,
        hdel.trans (congrArg ReceiveCore.delivered hcore)⟩
    · exact .inr ⟨c₁, hc', hlive, (Moves.of_stream hstream).trans hmoves, hctx.trans hcontext, hopen⟩
  · rw [if_neg hs]
    have hopen : c.state.isOpen = true := by
      have := h.sending.notClosed
      cases hst : c.state <;> simp_all [ConnState.isOpen]
    exact handleTCPEstablished_spec turn seg h hdir hopen true windowChanged (by rintro ⟨⟩)

/-- The same for a segment that moved nothing: the handshake is not completed by
it. -/
theorem handleTCPState_waiting (turn : Turn) (seg : VMSegment) (h : Live cfg c)
    (hdir : c.direction = .outbound) (status : Option AckStatus)
    (hstatus : status ≠ some .advanced) (windowChanged : Bool) :
    ∃ c', c.handleTCPState cfg turn seg status windowChanged = .ok c' ∧
      (c' = c ∧ c.state = .synSent ∨
        Finished cfg c' ∧ c.recv.peerFin = true ∧ c'.recv.core.delivered = c.recv.core.delivered ∨
        ∃ c₁, c' = c₁.handleData cfg turn seg ∧ Live cfg c₁ ∧ Moves Proper c c₁ ∧
          c₁.context = c.context ∧ c₁.state.isOpen = true) := by
  unfold handleTCPState
  by_cases hs : c.state = .synSent
  · rw [if_pos hs, if_pos (by simp [hstatus])]
    exact ⟨c, rfl, .inl ⟨rfl, hs⟩⟩
  · rw [if_neg hs]
    obtain ⟨c', hok, hcases⟩ := handleTCPEstablished_spec turn seg h.toReady
      hdir (h.isOpen hs) (status = some .advanced || windowChanged) windowChanged
      fun _ => h
    exact ⟨c', hok, .inr hcases⟩

theorem peerFin_of_context (h : c'.context = c.context) : c'.recv.peerFin = c.recv.peerFin :=
  congrArg (fun k => k.recv.peerFin) h

theorem delivered_of_context (h : c'.context = c.context) :
    c'.recv.core.delivered = c.recv.core.delivered :=
  congrArg (fun k => k.recv.delivered) h

/-- An acknowledgement that is only classified changes nothing that the
invariant speaks of. -/
theorem Live.withQueue (h : Live cfg c) {q : RetransmissionQueue}
    (hq : c.send.retransmission.SameStream q)
    (hseg : q.segments = c.send.retransmission.segments)
    (hpersist : q.persist = c.send.retransmission.persist)
    (htimer : c.send.retransmission.TimerExact → q.TimerExact) : Live cfg (c.withQueue q) :=
  ⟨h.toReady.of_eq_send (h.sending.withQueue hq) (Sending.withQueue_stream hq.items) rfl
    (htimer h.timer) h.stopped,
    wakes_congr h.wakes (by simp [wake, Conn.withQueue, hpersist]) (by simp [hseg]),
    fun hs => by rw [withQueue_retransmission, hseg]; exact h.awaiting hs⟩

/-- `handleTCP` on a live outbound connection. It returns, and in one of the
ways of `Received`. -/
theorem handleTCP_spec (h : Live cfg c) (hdir : c.direction = .outbound) (turn : Turn)
    (seg : VMSegment) :
    ∃ c', c.handleTCP cfg turn seg = .ok c' ∧ Received cfg turn c seg c' := by
  unfold handleTCP
  by_cases hsyn : (seg.syn && !seg.ack) = true
  · rw [if_pos hsyn]
    simp only [Bool.and_eq_true] at hsyn
    refine ⟨_, rfl, ?_⟩
    split
    · obtain ⟨hlive, hev⟩ := h.fastRetransmit turn
      exact .idle hlive hev.moves hev.context (fun _ => by assumption) fun _ => .inl hsyn.1
    · exact .idle h (.refl _) rfl id fun _ => .inl hsyn.1
  rw [if_neg hsyn]
  by_cases hrst : seg.rst = true
  · rw [if_pos hrst]
    exact ⟨_, rfl, .ended (.inl (abortTCPConnection_registered turn hdir false))
      (abortTCPConnection_delivered turn c false) (.inl hrst)⟩
  rw [if_neg hrst]
  by_cases hack : seg.ack = true
  swap
  · rw [if_pos (by simpa using hack)]
    obtain ⟨c', hok, hcases⟩ := handleTCPState_waiting turn seg h hdir none (by decide) false
    refine ⟨c', hok, ?_⟩
    rcases hcases with ⟨rfl, hs⟩ | ⟨hfin, hpeer, hdel⟩ | ⟨c₁, rfl, hlive, hmoves, hctx, hopen⟩
    · exact .idle h (.refl _) rfl id fun hopen => absurd hs (not_synSent_of_isOpen hopen)
    · exact .ended (.inr hfin) hdel (.inr hpeer)
    · exact .data hlive hmoves hctx hopen (fun ha => absurd ha hack) fun _ => hdir
  rw [if_neg (by simp [hack])]
  obtain ⟨c₁, acked, he, hadv⟩ | ⟨q, status, he, hne, hdup, hq, hseg, hpersist, htimer, -⟩ :=
    acknowledge_spec h.sending seg.ackNum
  · rw [he]
    obtain ⟨hready, hmoves, hctx, hstate, hsynAcked⟩ :=
      h.advance seg.seqNum hadv seg.window
    obtain ⟨c', hok, hcases⟩ := handleTCPState_advanced turn seg hready
      ((congrArg Context.direction hctx).trans hdir) (fun hs => hsynAcked (hstate.symm.trans hs))
      (c₁.updateTCPWindow seg.seqNum seg.ackNum seg.window.toNat).2
    refine ⟨c', hok, ?_⟩
    rcases hcases with ⟨hfin, hpeer, hdel⟩ | ⟨c₂, rfl, hlive, hmoves₂, hctx₂, hopen⟩
    · exact .ended (.inr hfin) (hdel.trans (delivered_of_context hctx))
        (.inr ((peerFin_of_context hctx).symm.trans hpeer))
    · exact .data hlive (hmoves.trans hmoves₂) (hctx₂.trans hctx) hopen
        (fun _ => hadv.covered.2) fun _ => hdir
  · rw [he]
    dsimp only
    by_cases hignored : status = .future ∨ status = .stale
    · rw [if_pos hignored]
      refine ⟨_, rfl, .idle (h.withQueue hq hseg hpersist htimer)
        (.of_stream (Sending.withQueue_stream hq.items)) rfl id fun _ => .inr ⟨hack, ?_⟩⟩
      rw [← hdup]
      rcases hignored with rfl | rfl <;> nofun
    · rw [if_neg hignored, if_neg hne]
      have hacceptable : c.Acceptable seg.ackNum := by
        rw [← hdup]
        cases status <;> simp_all
      obtain ⟨hlive, hmoves, hctx, hstate⟩ :=
        h.duplicate seg.seqNum seg.ackNum hq hseg hpersist htimer seg.window
      generalize hwin : (c.withQueue q).updateTCPWindow seg.seqNum seg.ackNum
        seg.window.toNat = result at hlive hmoves hctx hstate ⊢
      obtain ⟨c₂, windowChanged⟩ := result
      dsimp only at hlive hmoves hctx hstate ⊢
      have hnoted : Live cfg (if c₂.isDuplicateAck seg windowChanged = true
            then c₂.noteDuplicateAck cfg turn seg.ackNum else c₂) ∧
          Moves Proper c (if c₂.isDuplicateAck seg windowChanged = true
            then c₂.noteDuplicateAck cfg turn seg.ackNum else c₂) ∧
          (if c₂.isDuplicateAck seg windowChanged = true
            then c₂.noteDuplicateAck cfg turn seg.ackNum else c₂).context = c.context ∧
          ((if c₂.isDuplicateAck seg windowChanged = true
            then c₂.noteDuplicateAck cfg turn seg.ackNum else c₂).state = .synSent →
            c.state = .synSent) := by
        split
        · obtain ⟨hlive', hmoves', hctx', hstate'⟩ := hlive.noteDuplicateAck turn seg.ackNum
          refine ⟨hlive', hmoves.trans hmoves', hctx'.trans hctx, fun hs => ?_⟩
          rcases hstate' with he | ⟨-, he⟩
          · rw [← hstate, ← he, hs]
          · rw [he] at hs
            cases hs
        · exact ⟨hlive, hmoves, hctx, fun hs => hstate ▸ hs⟩
      generalize (if c₂.isDuplicateAck seg windowChanged = true
        then c₂.noteDuplicateAck cfg turn seg.ackNum else c₂) = c₃ at hnoted ⊢
      obtain ⟨hlive₃, hmoves₃, hctx₃, hstate₃⟩ := hnoted
      obtain ⟨c', hok, hcases⟩ := handleTCPState_waiting turn seg hlive₃
        ((congrArg Context.direction hctx₃).trans hdir) (some status)
        (fun he => hne (Option.some.inj he)) windowChanged
      refine ⟨c', hok, ?_⟩
      rcases hcases with ⟨rfl, hs⟩ | ⟨hfin, hpeer, hdel⟩ |
        ⟨c₄, rfl, hlive₄, hmoves₄, hctx₄, hopen⟩
      · exact .idle hlive₃ hmoves₃ hctx₃ hstate₃ fun hopen =>
          absurd (hstate₃ hs) (not_synSent_of_isOpen hopen)
      · exact .ended (.inr hfin) (hdel.trans (delivered_of_context hctx₃))
          (.inr ((peerFin_of_context hctx₃).symm.trans hpeer))
      · exact .data hlive₄ (hmoves₃.trans hmoves₄) (hctx₄.trans hctx₃) hopen
          (fun _ => hacceptable) fun _ => hdir

theorem Live.withIdleTimer (h : Live cfg c) (idleTimer : Bool) : Live cfg { c with idleTimer } :=
  ⟨h.toReady.of_eq_send { h.sending with } rfl rfl h.timer h.stopped, h.wakes, h.awaiting⟩

/-- The SYN is all that can be acknowledged during the handshake. -/
theorem Acknowledged.handshake (h : c.Sending cfg) (hs : c.state = .synSent) {c₁ : Conn}
    {ackNum : Seq} {acked : Nat} (hack : Acknowledged cfg c c₁ ackNum acked) :
    c₁.Sending cfg ∧ c₁.send.retransmission.hasOutstanding = false := by
  have hhistory := h.handshake hs
  have hcovered := hack.covered
  have hlen := congrArg List.length hhistory
  rw [State.history, List.length_append] at hlen
  simp only [List.length_cons, List.length_nil] at hlen
  have hdata : acked = 0 := by
    rw [hack.data]
    have hall : (dataOf c.stream.history).length = 0 := by rw [hhistory]; rfl
    rw [State.history, dataOf_append, List.length_append] at hall
    have htake := congrArg (fun xs => (dataOf xs).length)
      (List.take_append_drop (c.ackedItems ackNum) c.stream.outstanding)
    simp only [dataOf_append, List.length_append] at htake
    omega
  refine ⟨hack.sending.restore fun r hr => hack.recovery r hr (.inl hdata), ?_⟩
  have hitems : c₁.send.retransmission.items = [] := by
    have := congrArg State.outstanding hack.stream
    change c₁.send.retransmission.items = c.stream.outstanding.drop _ at this
    rw [this]
    exact List.drop_of_length_le (by omega)
  have htracked : c₁.send.retransmission.WellTracked := hack.sending.tracked
  have hseg : c₁.send.retransmission.segments = [] := by
    by_contra hne
    exact htracked.hasOutstanding_iff.mp hne hitems
  simp [RetransmissionQueue.hasOutstanding, hseg]

/-- The reverse connection after the SYN-ACK `seg` has been accepted:
established, with `vmSeq` behind the SYN of the VM. -/
def completed (cfg : Settings) (c : Conn) (seg : VMSegment) : Conn :=
  { c with
    state := .established
    recv := { c.recv with vmSeq := seg.seqNum + 1 }
    send := { c.send with
      vmLastAck := c.send.retransmission.sndUna
      vmWindow := seg.window.toNat
      sendMss := min cfg.TCP_MSS (match seg.mss with
        | some mss => if mss = 0 then TCP_FALLBACK_MSS else mss
        | none => TCP_FALLBACK_MSS) } }

/-- Accepting the SYN-ACK keeps the connection live. -/
theorem Live.complete (h : Live cfg c) (hdir : c.direction = .reverse) (hs : c.state = .synSent)
    {c₁ : Conn} {acked : Nat} (hadv : Acknowledged cfg c c₁ seg.ackNum acked) :
    Ready cfg (c₁.completed cfg seg) ∧ Moves Proper c (c₁.completed cfg seg) ∧
      (c₁.completed cfg seg).context =
        { c.context with recv := { c.recv.core with vmSeq := seg.seqNum + 1 } } := by
  obtain ⟨hsending, -⟩ := hadv.handshake h.sending hs
  have hbound : seg.window.toNat ≤ 65535 := Nat.le_of_lt_succ seg.window.isLt
  have hctx : (c₁.completed cfg seg).context =
      { c.context with recv := { c.recv.core with vmSeq := seg.seqNum + 1 } } := by
    rw [hadv.rest]
    rfl
  have hdir₂ : (c₁.completed cfg seg).direction = .reverse :=
    (congrArg Context.direction hctx).trans hdir
  refine ⟨?_, ?_, hctx⟩
  · exact {
      registered := (congrArg Context.registered hctx).trans h.registered
      sending := { hsending with
        notClosed := nofun
        window := fun _ => hbound
        handshake := nofun
        synAcked := fun _ => hadv.acknowledged_ne_nil }
      timer := hadv.timer h.timer
      stopped := by
        change c₁.send.sending = false
        rw [hadv.rest]
        exact h.stopped
      outbound := fun ho => by
        rw [hdir₂] at ho
        cases ho }
  · have hproper : Proper c.stream (.acknowledge (c.ackedItems seg.ackNum)) := trivial
    refine ⟨_, .single ⟨hproper, ?_⟩⟩
    change SendStream.Step _ _ _ c₁.stream
    rw [hadv.stream]
    exact .acknowledge c.stream _

/-- A SYN-ACK during the handshake is accepted if it acknowledges the SYN, and
ignored if it does not. -/
theorem handleReverseSynAck_spec (h : Live cfg c) (hdir : c.direction = .reverse)
    (hs : c.state = .synSent) (hsyn : seg.syn = true) (turn : Turn) :
    ∃ c', c.handleReverseSynAck cfg turn seg = .ok c' ∧ Received cfg turn c seg c' := by
  unfold handleReverseSynAck
  obtain ⟨c₁, acked, he, hadv⟩ | ⟨q, status, he, hne, -, hq, hseg, hpersist, htimer, -⟩ :=
    acknowledge_spec h.sending seg.ackNum
  · rw [he]
    obtain ⟨-, hout⟩ := hadv.handshake h.sending hs
    dsimp only
    rw [if_neg (by simp [hout])]
    obtain ⟨hready, hmoves, hctx⟩ := h.complete hdir hs hadv
    have hdir₂ : (c₁.completed cfg seg).direction = .reverse :=
      (congrArg Context.direction hctx).trans hdir
    have hp := sendTCPAck_passive cfg (c₁.completed cfg seg)
    have hctxAck := hp.context (sendTCPAck_core cfg _)
    obtain ⟨c', hok, hlive, hev, -⟩ := (hready.passive hp).trySend turn fun hsyn => by
      rw [hp.state] at hsyn
      cases hsyn
    rw [trySend_reverse (hp.direction.trans hdir₂)] at hok
    have hstream : ((c₁.completed cfg seg).sendTCPAck cfg).stream =
        (c₁.completed cfg seg).stream := by
      rw [stream, hp.send]
      rfl
    exact ⟨c', hok, .handshake hlive ((hmoves.trans (.of_stream hstream)).trans hev.moves)
      ⟨hs, hdir⟩ hsyn (hev.context.trans (hctxAck.trans hctx))⟩
  · rw [he]
    dsimp only
    rw [if_pos (.inl hne)]
    exact ⟨_, rfl, .idle (h.withQueue hq hseg hpersist htimer)
      (.of_stream (Sending.withQueue_stream hq.items)) rfl id
      fun hopen => absurd hs (not_synSent_of_isOpen hopen)⟩

/-- The acknowledgement part of `handleReverseTCP`, up to the payload. -/
theorem handleReverseTCPAck_spec (h : Live cfg c) (hdir : c.direction = .reverse)
    (hopen : c.state.isOpen = true) (turn : Turn) (seg : VMSegment) :
    ∃ c₁ done, c.handleReverseTCPAck cfg turn seg = .ok (c₁, done) ∧
      (done = true ∧ c₁.registered = false ∧ c.recv.peerFin = true ∧
          c₁.recv.core.delivered = c.recv.core.delivered ∨
        Live cfg c₁ ∧ Moves Proper c c₁ ∧ c₁.context = c.context ∧ c₁.state.isOpen = true ∧
          (done = false ↔ c.Acceptable seg.ackNum)) := by
  unfold handleReverseTCPAck
  obtain ⟨c₁, acked, he, hadv⟩ | ⟨q, status, he, hne, hdup, hq, hseg, hpersist, htimer, -⟩ :=
    acknowledge_spec h.sending seg.ackNum
  · rw [he]
    obtain ⟨hready, hmoves, hctx, hstate, -⟩ := h.advance seg.seqNum hadv seg.window
    dsimp only
    rw [if_neg (by simp), if_pos rfl]
    generalize (c₁.updateTCPWindow seg.seqNum seg.ackNum seg.window.toNat).2 = windowChanged
    generalize (c₁.updateTCPWindow seg.seqNum seg.ackNum seg.window.toNat).1.noteAdvancedAck cfg
      acked seg.ackNum = c₂ at hready hmoves hctx hstate ⊢
    have hdir₂ := (congrArg Context.direction hctx).trans hdir
    by_cases hboth : c₂.bothClosed = true
    · rw [if_pos hboth]
      obtain ⟨hpeer, -, -⟩ := (bothClosed_iff c₂).mp hboth
      exact ⟨_, _, rfl, .inl ⟨rfl, finishReverseConnection_registered c₂,
        (peerFin_of_context hctx).symm.trans hpeer,
        (finishReverseConnection_delivered c₂).trans (delivered_of_context hctx)⟩⟩
    · rw [if_neg hboth, ← trySend_reverse hdir₂]
      have hopen₂ : c₂.state.isOpen = true := hstate ▸ hopen
      obtain ⟨c₃, hok, hlive₃, hev₃, -⟩ := hready.trySend turn
        fun hs => absurd hs (not_synSent_of_isOpen hopen₂)
      rw [hok]
      have hacceptable : c.Acceptable seg.ackNum := hadv.covered.2
      cases windowChanged with
      | false =>
          exact ⟨c₃, false, rfl, .inr ⟨hlive₃, hmoves.trans hev₃.moves, hev₃.context.trans hctx,
            hev₃.isOpen hopen₂, by simp [hacceptable]⟩⟩
      | true =>
          obtain ⟨c₄, hok₄, hlive₄, hev₄, -⟩ := (hlive₃.toReady.withDup 0).trySend turn
            fun hs => absurd hs (not_synSent_of_isOpen (hev₃.isOpen hopen₂))
          have hdir₃ : ({ c₃ with send := { c₃.send with dupAckCount := 0 } } : Conn).direction =
            .reverse := hev₃.direction.trans hdir₂
          rw [trySend_reverse hdir₃] at hok₄
          refine ⟨c₄, false, ?_, .inr ⟨hlive₄, (hmoves.trans hev₃.moves).trans hev₄.moves,
            hev₄.context.trans (hev₃.context.trans hctx), hev₄.isOpen (hev₃.isOpen hopen₂),
            by simp [hacceptable]⟩⟩
          dsimp only [Except.map]
          rw [if_pos rfl, hok₄]
  · rw [he]
    dsimp only
    by_cases hignored : status = .future ∨ status = .stale
    · rw [if_pos hignored]
      refine ⟨_, true, rfl, .inr ⟨h.withQueue hq hseg hpersist htimer,
        .of_stream (Sending.withQueue_stream hq.items), rfl, hopen, ?_⟩⟩
      rw [← hdup]
      rcases hignored with rfl | rfl <;> simp
    · rw [if_neg hignored, if_neg hne]
      have hacceptable : c.Acceptable seg.ackNum := by
        rw [← hdup]
        cases status <;> simp_all
      obtain ⟨hlive, hmoves, hctx, hstate⟩ :=
        h.duplicate seg.seqNum seg.ackNum hq hseg hpersist htimer seg.window
      generalize (c.withQueue q).updateTCPWindow seg.seqNum seg.ackNum
        seg.window.toNat = result at hlive hmoves hctx hstate ⊢
      obtain ⟨c₂, windowChanged⟩ := result
      dsimp only at hlive hmoves hctx hstate ⊢
      have hopen₂ : c₂.state.isOpen = true := hstate ▸ hopen
      obtain ⟨c₃, hc₃, hlive₃, hmoves₃, hctx₃, hopen₃⟩ : ∃ c₃,
          (if c₂.isDuplicateAck seg windowChanged = true then
            (.ok (c₂.noteDuplicateAck cfg turn seg.ackNum, false) : Outcome (Conn × Bool))
          else .ok (c₂, false)) = .ok (c₃, false) ∧ Live cfg c₃ ∧ Moves Proper c c₃ ∧
            c₃.context = c.context ∧ c₃.state.isOpen = true := by
        split
        · obtain ⟨hlive', hmoves', hctx', hstate'⟩ := hlive.noteDuplicateAck turn seg.ackNum
          refine ⟨_, rfl, hlive', hmoves.trans hmoves', hctx'.trans hctx, ?_⟩
          rcases hstate' with he' | ⟨-, he'⟩
          · rw [he']
            exact hopen₂
          · rw [he']
            rfl
        · exact ⟨_, rfl, hlive, hmoves, hctx, hopen₂⟩
      rw [hc₃]
      cases windowChanged with
      | false => exact ⟨c₃, false, rfl, .inr ⟨hlive₃, hmoves₃, hctx₃, hopen₃, by simp [hacceptable]⟩⟩
      | true =>
          obtain ⟨c₄, hok₄, hlive₄, hev₄, -⟩ := (hlive₃.toReady.withDup 0).trySend turn
            fun hs => absurd hs (not_synSent_of_isOpen hopen₃)
          have hdir₃ : ({ c₃ with send := { c₃.send with dupAckCount := 0 } } : Conn).direction =
            .reverse := (congrArg Context.direction hctx₃).trans hdir
          rw [trySend_reverse hdir₃] at hok₄
          refine ⟨c₄, false, ?_, .inr ⟨hlive₄, hmoves₃.trans hev₄.moves,
            hev₄.context.trans hctx₃, hev₄.isOpen hopen₃, by simp [hacceptable]⟩⟩
          dsimp only [Except.map]
          rw [if_pos rfl, hok₄]

/-- `handleReverseTCP` after it has restarted the idle timer. -/
theorem handleReverseTCP_bumped (h : Live cfg c) (hdir : c.direction = .reverse)
    (hidle : c.idleTimer = true) (turn : Turn) (seg : VMSegment) :
    ∃ c', c.handleReverseTCP cfg turn seg = .ok c' ∧ Received cfg turn c seg c' := by
  have hbump : ({ c with idleTimer := true } : Conn) = c := by rw [← hidle]
  unfold handleReverseTCP
  rw [hbump]
  dsimp only
  by_cases hrst : seg.rst = true
  · rw [if_pos hrst]
    exact ⟨_, rfl, .ended (.inl (abortReverseConnection_registered turn hdir false))
      (abortReverseConnection_delivered turn c false) (.inl hrst)⟩
  rw [if_neg hrst]
  by_cases hs : c.state = .synSent
  · rw [if_pos hs]
    split
    · rename_i hsynAck
      simp only [Bool.and_eq_true] at hsynAck
      exact handleReverseSynAck_spec h hdir hs hsynAck.1 turn
    · exact ⟨c, rfl, .idle h (.refl _) rfl id fun hopen => absurd hs (not_synSent_of_isOpen hopen)⟩
  rw [if_neg hs]
  by_cases hsynAck : (seg.syn && seg.ack) = true
  · rw [if_pos hsynAck]
    have hp := sendTCPAck_passive cfg c
    have hstream : (c.sendTCPAck cfg).stream = c.stream := by rw [stream, hp.send]; rfl
    refine ⟨_, rfl, .idle ⟨h.toReady.passive hp, ?_, ?_⟩ (.of_stream hstream)
      (hp.context (sendTCPAck_core cfg c)) (fun hsyn => hp.state.symm.trans hsyn) fun _ => .inl ?_⟩
    · simp only [NeedsWake, HasCause, hp.send]
      exact h.wakes
    · rw [hp.state, hp.send]
      exact h.awaiting
    · simp only [Bool.and_eq_true] at hsynAck
      exact hsynAck.1
  rw [if_neg hsynAck, if_neg (by simp [h.isOpen hs])]
  by_cases hack : seg.ack = true
  swap
  · rw [if_pos (by simpa using hack)]
    have hdata : c.handleReverseTCPData cfg turn seg = c.handleData cfg turn seg := by
      rw [handleData, hdir]
    rw [hdata]
    exact ⟨_, rfl, .data h (.refl _) rfl (h.isOpen hs) (fun ha => absurd ha hack)
      fun hsyn => absurd hsyn hs⟩
  rw [if_neg (by simp [hack])]
  obtain ⟨c₁, done, he, hcases⟩ := handleReverseTCPAck_spec h hdir (h.isOpen hs) turn seg
  rw [he]
  rcases hcases with ⟨rfl, hgone, hpeer, hdel⟩ | ⟨hlive, hmoves, hctx, hopen, hdone⟩
  · exact ⟨c₁, rfl, .ended (.inl hgone) hdel (.inr hpeer)⟩
  · cases done with
    | true =>
        exact ⟨c₁, rfl, .idle hlive hmoves hctx
          (fun hsyn => absurd hsyn (not_synSent_of_isOpen hopen))
          fun _ => .inr ⟨hack, fun ha => by cases hdone.mpr ha⟩⟩
    | false =>
        have hdir₁ : c₁.direction = .reverse := (congrArg Context.direction hctx).trans hdir
        have hdata : c₁.handleReverseTCPData cfg turn seg = c₁.handleData cfg turn seg := by
          rw [handleData, hdir₁]
        refine ⟨_, rfl, ?_⟩
        rw [hdata]
        exact .data hlive hmoves hctx hopen (fun _ => hdone.mp rfl) fun hsyn => absurd hsyn hs

theorem handleReverseTCP_spec (h : Live cfg c) (hdir : c.direction = .reverse) (turn : Turn)
    (seg : VMSegment) :
    ∃ c', c.handleReverseTCP cfg turn seg = .ok c' ∧ Received cfg turn c seg c' := by
  obtain ⟨c', hok, hcases⟩ :=
    handleReverseTCP_bumped (h.withIdleTimer true) hdir rfl turn seg
  refine ⟨c', hok, ?_⟩
  cases hcases with
  | ended gone delivered reason => exact .ended gone delivered reason
  | idle live moves context stays reason => exact .idle live moves context stays reason
  | handshake live moves start syn context => exact .handshake live moves start syn context
  | data live moves context isOpen reason past =>
      exact .data live moves context isOpen reason past

/-- Handling a segment of a live connection: no exception, and one of the ways
of `Received`. -/
theorem onSegment_spec (h : Live cfg c) (turn : Turn) (seg : VMSegment) :
    ∃ c', c.onSegment cfg turn seg = .ok c' ∧ Received cfg turn c seg c' := by
  unfold onSegment
  cases hdir : c.direction
  · exact handleTCP_spec h hdir turn seg
  · exact handleReverseTCP_spec h hdir turn seg

/-- Taking payload and acknowledging it keeps a connection live. -/
theorem Live.passive (h : Live cfg c) (hp : Passive c c') : Live cfg c' := by
  refine ⟨h.toReady.passive hp, ?_, ?_⟩
  · simp only [NeedsWake, HasCause, hp.send]
    exact h.wakes
  · rw [hp.state, hp.send]
    exact h.awaiting

/-- The receiving side after the FIN part of a handler. The FIN counts only
where it is next in sequence. -/
def receiveFin (recv : ReceiveCore) (seg : VMSegment) : ReceiveCore :=
  if seg.fin ∧ seg.seqNum + BitVec.ofNat 32 seg.payload.length = recv.vmSeq then
    { recv with
      vmSeq := recv.vmSeq + 1
      peerFin := true
      sink := { recv.sink with writable := false, ended := true } }
  else recv

/-- The receiving side after payload and FIN of a segment; the FIN is passed
over when the payload part returns early. -/
def receiveData (cfg : Settings) (turn : Turn) (recv : ReceiveSide) (seg : VMSegment) :
    ReceiveCore :=
  let (recv, done) := receivePayload cfg turn recv seg.seqNum seg.payload
  if done then recv.core else receiveFin recv.core seg

/-- What processing payload and FIN leaves of a live connection. It may have
ended, if both sides have now closed. -/
structure DataHandled (cfg : Settings) (c : Conn) (recv : ReceiveCore) (c' : Conn) : Prop where
  core : c'.recv.core = recv
  stays : c'.state = .synSent → c.state = .synSent
  outcome : (c'.registered = false ∨ Finished cfg c') ∧ recv.peerFin = true ∨
    Live cfg c' ∧ c'.stream = c.stream ∧ c'.context = { c.context with recv }

theorem Live.endSink (h : Live cfg c) (hopen : c.state.isOpen = true) (recv : ReceiveSide) :
    Live cfg { c with state := .closing, recv } := by
  have hsyn := not_synSent_of_isOpen hopen
  have hready := h.toReady.withState .closing (h.sending.window (.inr hsyn))
    (h.sending.synAcked hsyn) nofun nofun
  exact ⟨hready.passive (.withRecv _ recv), h.wakes, nofun⟩

theorem DataHandled.of_passive (h : Live cfg c) (hp : Passive c c') {recv : ReceiveCore}
    (hcore : c'.recv.core = recv) : DataHandled cfg c recv c' := by
  refine ⟨hcore, fun hsyn => hp.state.symm.trans hsyn,
    .inr ⟨h.passive hp, by rw [stream, hp.send]; rfl, ?_⟩⟩
  simp only [context, hp.direction, hp.tx, hp.registered, hp.send, hcore]

/-- The core after a matching FIN: the sink is ended and `vmSeq` stands behind
the FIN. -/
def finished (recv : ReceiveCore) : ReceiveCore :=
  { recv with
    vmSeq := recv.vmSeq + 1
    peerFin := true
    sink := { recv.sink with writable := false, ended := true } }

/-- A FIN that is not next changes nothing; one that is finishes the receiving
side. -/
theorem receiveFin_cases (recv : ReceiveCore) (seg : VMSegment) :
    (seg.fin = false ∨ seg.seqNum + BitVec.ofNat 32 seg.payload.length ≠ recv.vmSeq) ∧
        receiveFin recv seg = recv ∨
    seg.fin = true ∧ seg.seqNum + BitVec.ofNat 32 seg.payload.length = recv.vmSeq ∧
      receiveFin recv seg = finished recv := by
  unfold receiveFin
  split
  · rename_i h
    exact .inr ⟨h.1, h.2, rfl⟩
  · rename_i h
    refine .inl ⟨?_, rfl⟩
    by_cases hf : seg.fin = true
    · exact .inr fun he => h ⟨hf, he⟩
    · exact .inl (by simpa using hf)

/-- The FIN part of the outbound handler. -/
theorem handleTCPFin_spec (h : Live cfg c) (hdir : c.direction = .outbound)
    (hopen : c.state.isOpen = true) (seg : VMSegment) :
    DataHandled cfg c (receiveFin c.recv.core seg) (c.handleTCPFin cfg seg) := by
  unfold handleTCPFin
  obtain ⟨hno, he⟩ | ⟨hfin, hseq, he⟩ := receiveFin_cases c.recv.core seg
  · rw [he]
    split
    · exact .of_passive h (.refl c) rfl
    · rename_i hfin
      rw [if_pos]
      · exact .of_passive h (scheduleTCPAck_passive cfg c 0 true)
          (scheduleTCPAck_core cfg c 0 true)
      · refine hno.resolve_left ?_
        simpa using hfin
  · change _ = c.recv.vmSeq at hseq
    rw [he, if_neg (by simp [hfin]), if_neg (not_not_intro hseq)]
    have hp := (Passive.withRecv c (passFin c.recv)).trans
      (scheduleTCPAck_passive cfg { c with recv := passFin c.recv } 0 true)
    have hcore := scheduleTCPAck_core cfg { c with recv := passFin c.recv } 0 true
    generalize ({ c with recv := passFin c.recv } : Conn).scheduleTCPAck cfg 0 true = c₁
      at hp hcore ⊢
    have hlive := (h.passive hp).endSink (by rw [hp.state]; exact hopen) (Conn.endSink c₁.recv)
    have hcore₂ : (Conn.endSink c₁.recv).core = finished c.recv.core := by
      have hwrap : (Conn.endSink c₁.recv).core = { c₁.recv.core with
          peerFin := true
          sink := { c₁.recv.core.sink with writable := false, ended := true } } := rfl
      rw [hwrap, hcore]
      rfl
    dsimp only
    split
    · rename_i hboth
      simp only [Bool.and_eq_true, Bool.not_eq_true'] at hboth
      have hfinished := hlive.toReady.finish (hp.direction.trans hdir) hboth.1 hboth.2
      refine ⟨?_, fun hsyn => absurd (hfinished.state.symm.trans hsyn) nofun,
        .inl ⟨.inr hfinished, rfl⟩⟩
      rw [← hcore₂, finishTCPConnection, if_neg (by simp [hp.registered, h.registered])]
      rfl
    · refine ⟨hcore₂, nofun, .inr ⟨hlive, by rw [stream, stream, hp.send], ?_⟩⟩
      simp only [context, hp.direction, hp.tx, hp.registered, hp.send, hcore₂]

/-- The FIN part of the reverse handler. -/
theorem handleReverseTCPFin_spec (h : Live cfg c)
    (hopen : c.state.isOpen = true) (seg : VMSegment) :
    DataHandled cfg c (receiveFin c.recv.core seg) (c.handleReverseTCPFin cfg seg) := by
  unfold handleReverseTCPFin
  obtain ⟨hno, he⟩ | ⟨hfin, hseq, he⟩ := receiveFin_cases c.recv.core seg
  · rw [he]
    split
    · exact .of_passive h (.refl c) rfl
    · rename_i hfin
      rw [if_pos]
      · exact .of_passive h (scheduleTCPAck_passive cfg c 0 true)
          (scheduleTCPAck_core cfg c 0 true)
      · refine hno.resolve_left ?_
        simpa using hfin
  · change _ = c.recv.vmSeq at hseq
    rw [he, if_neg (by simp [hfin]), if_neg (not_not_intro hseq)]
    have hclosing := h.endSink hopen (Conn.endSink (passFin c.recv))
    have hp := scheduleTCPAck_passive cfg
      { c with state := .closing, recv := Conn.endSink (passFin c.recv) } 0 true
    have hcore := scheduleTCPAck_core cfg
      { c with state := .closing, recv := Conn.endSink (passFin c.recv) } 0 true
    dsimp only
    generalize ({ c with state := .closing, recv := Conn.endSink (passFin c.recv) } :
      Conn).scheduleTCPAck cfg 0 true = c₁ at hp hcore ⊢
    split
    · have hwrap : c₁.finishReverseConnection.recv.core = { c₁.recv.core with
          sink := { c₁.recv.core.sink with writable := false, ended := true } } ∧
          c₁.finishReverseConnection.state = .closed := by
        rw [finishReverseConnection, if_neg (by simp [hp.registered, h.registered])]
        exact ⟨rfl, rfl⟩
      refine ⟨?_, fun hsyn => absurd (hwrap.2.symm.trans hsyn) nofun,
        .inl ⟨.inl (finishReverseConnection_registered c₁), rfl⟩⟩
      rw [hwrap.1, hcore]
      rfl
    · refine ⟨hcore, fun hsyn => absurd (hp.state.symm.trans hsyn) nofun,
        .inr ⟨hclosing.passive hp, by rw [stream, stream, hp.send], ?_⟩⟩
      simp only [context, hp.direction, hp.tx, hp.registered, hp.send, hcore]
      rfl

/-- The payload part may come first. -/
theorem DataHandled.after_passive {recv : ReceiveCore} (hp : Passive c c')
    (h : DataHandled cfg c' recv c'') : DataHandled cfg c recv c'' := by
  refine ⟨h.core, fun hsyn => hp.state.symm.trans (h.stays hsyn), h.outcome.imp id ?_⟩
  rintro ⟨hlive, hstream, hcontext⟩
  refine ⟨hlive, hstream.trans (by rw [stream, stream, hp.send]), hcontext.trans ?_⟩
  simp only [context, hp.direction, hp.tx, hp.registered, hp.send]

/-- Both handlers do the same to the receiving side, and neither touches the
outgoing stream. -/
theorem handleData_spec (h : Live cfg c) (hopen : c.state.isOpen = true) (turn : Turn)
    (seg : VMSegment) :
    DataHandled cfg c (receiveData cfg turn c.recv seg) (c.handleData cfg turn seg) := by
  unfold handleData receiveData
  cases hdir : c.direction
  · obtain ⟨hp, hcore, hdone⟩ := handleTCPPayload_spec cfg turn c seg
    unfold handleTCPData
    dsimp only
    rw [hdone]
    split
    · exact .of_passive h hp hcore
    · rw [← hcore]
      exact .after_passive hp (handleTCPFin_spec (h.passive hp) (hp.direction.trans hdir)
        (hp.state ▸ hopen) seg)
  · obtain ⟨hp, hcore, hdone⟩ := handleReverseTCPPayload_spec cfg turn c seg
    unfold handleReverseTCPData
    dsimp only
    rw [hdone]
    split
    · exact .of_passive h hp hcore
    · rw [← hcore]
      exact .after_passive hp (handleReverseTCPFin_spec (h.passive hp)
        (hp.state ▸ hopen) seg)

end Conn

end RootlessRelay
