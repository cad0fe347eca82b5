import RootlessRelay.Tcp.AckPart
import RootlessRelay.Tcp.ArrivalOrder

/-!
# A live connection is not closed on both sides

A handler that finds both directions closed and nothing outstanding finishes the
connection at once. So between two events a live connection never satisfies
`bothClosed`, and a FIN of the VM is only known in the closing states.

`Upright` is the invariant that says so, together with what follows for the
reassembly buffer before the handshake. It is kept by every part of a handler,
which is what `Proceeded` records for the parts in front of the payload; the
cases of a whole segment (`Live.onSegment_cases`) are then what the results
about FINs, duplicates and repeated handshakes start from.
-/

namespace RootlessRelay

open SequenceSpace Transition SendStream

namespace Conn

variable {cfg : Settings} {turn : Turn} {c c' c'' : Conn} {seg : VMSegment} {event : Event}

/-- Somebody still has to close, a FIN of the VM has left its mark on the state,
and nothing has been buffered during the handshake. -/
structure Upright (c : Conn) : Prop where
  notBoth : c.bothClosed = false
  closing : c.recv.peerFin = true → c.state ≠ .synSent ∧ c.state ≠ .established
  handshake : c.state = .synSent → c.recv.vmOutOfOrder = []

namespace Upright

theorem of_open (h : c.recv.peerFin = false)
    (hbuffer : c.state = .synSent → c.recv.vmOutOfOrder = []) : Upright c :=
  ⟨by simp [bothClosed, h], fun hpeer => absurd (h.symm.trans hpeer) Bool.false_ne_true, hbuffer⟩

/-- The states that come after a FIN are not left, and nothing is buffered
during the handshake. -/
theorem keep (h : Upright c) (hnot : c'.bothClosed = false)
    (hpeer : c'.recv.peerFin = c.recv.peerFin)
    (hbuffer : c.state = .synSent → c'.recv.vmOutOfOrder = c.recv.vmOutOfOrder)
    (hstate : c'.state = c.state ∨ c.state ≠ .synSent ∧ c'.state = .finWait) : Upright c' := by
  rcases hstate with he | ⟨-, he⟩
  · refine ⟨hnot, fun hp => ?_, fun hs => ?_⟩
    · rw [he]
      exact h.closing (hpeer.symm.trans hp)
    · have hs' := he.symm.trans hs
      exact (hbuffer hs').trans (h.handshake hs')
  · refine ⟨hnot, fun _ => ?_, fun hs => absurd (he.symm.trans hs) (by decide)⟩
    rw [he]
    exact ⟨by decide, by decide⟩

theorem evolves (h : Upright c) (hs : c.Sending cfg) (hev : Evolves cfg c c') : Upright c' :=
  h.keep (hev.not_bothClosed hs h.notBoth) (by rw [hev.recv]) (fun _ => by rw [hev.recv]) hev.state

theorem passive (h : Upright c) (hp : Passive c c') (hpeer : c'.recv.peerFin = c.recv.peerFin)
    (hbuffer : c.state = .synSent → c'.recv.vmOutOfOrder = c.recv.vmOutOfOrder) : Upright c' := by
  refine h.keep ?_ hpeer hbuffer (.inl hp.state)
  have hnot := h.notBoth
  rw [not_bothClosed_iff] at hnot ⊢
  rw [hpeer, hp.send]
  exact hnot

/-- Only acknowledgements are sent, and the core of the receiving side stays. -/
theorem acks (h : Upright c) (hp : Passive c c') (hcore : c'.recv.core = c.recv.core) :
    Upright c' :=
  h.passive hp (congrArg ReceiveCore.peerFin hcore)
    fun _ => congrArg (fun recv : ReceiveCore => recv.vmOutOfOrder) hcore

end Upright

theorem finishTCPConnection_not_current (c : Conn) : ¬c.finishTCPConnection.Current := by
  unfold finishTCPConnection
  split
  · rename_i hgone
    intro hcurrent
    simp [hcurrent.1] at hgone
  · exact fun hcurrent => hcurrent.2 rfl

theorem finishReverseConnection_not_current (c : Conn) : ¬c.finishReverseConnection.Current :=
  fun hcurrent => by
    have hgone := finishReverseConnection_registered c
    rw [hcurrent.1] at hgone
    cases hgone

/-- The state in which a matching FIN leaves a connection that is not finished. -/
theorem upright_closing (hstate : c.state = .closing)
    (hmore : (c.send.finSent && !c.send.retransmission.hasOutstanding) = false) : Upright c := by
  refine ⟨?_, fun _ => by rw [hstate]; exact ⟨by decide, by decide⟩,
    fun hs => absurd (hstate.symm.trans hs) (by decide)⟩
  rw [bothClosed, Bool.and_assoc, hmore, Bool.and_false]

theorem handleTCPFin_upright (h : Upright c) (seg : VMSegment) :
    (c.handleTCPFin cfg seg).Current → Upright (c.handleTCPFin cfg seg) := by
  unfold handleTCPFin
  dsimp only
  split
  · exact fun _ => h
  split
  · exact fun _ => h.acks (scheduleTCPAck_passive cfg c 0 true)
      (scheduleTCPAck_core cfg c 0 true)
  split
  · exact fun hcurrent => absurd hcurrent (finishTCPConnection_not_current _)
  · rename_i hmore
    exact fun _ => upright_closing rfl (Bool.eq_false_iff.mpr hmore)

/-- A FIN of the VM on a reverse connection leaves it upright, unless it ends
it. -/
theorem handleReverseTCPFin_upright (h : Upright c) (seg : VMSegment) :
    (c.handleReverseTCPFin cfg seg).Current → Upright (c.handleReverseTCPFin cfg seg) := by
  unfold handleReverseTCPFin
  dsimp only
  split
  · exact fun _ => h
  split
  · exact fun _ => h.acks (scheduleTCPAck_passive cfg c 0 true)
      (scheduleTCPAck_core cfg c 0 true)
  have hp := scheduleTCPAck_passive cfg
    { c with state := .closing, recv := Conn.endSink (passFin c.recv) } 0 true
  split
  · exact fun hcurrent => absurd hcurrent (finishReverseConnection_not_current _)
  · rename_i hmore
    exact fun _ => upright_closing hp.state (Bool.eq_false_iff.mpr hmore)

/-- Payload does not say that the VM has finished. -/
theorem receivePayload_peerFin (cfg : Settings) (turn : Turn) (recv : ReceiveSide)
    (seqNum : Seq) (payload : Bytes) :
    (receivePayload cfg turn recv seqNum payload).1.peerFin = recv.peerFin := by
  have htaken : ∀ payload, (acceptPayload turn recv payload).1.peerFin = recv.peerFin := by
    intro payload
    obtain ⟨drained, h⟩ := acceptPayload_takenOver turn recv payload
    exact h.peerFin
  unfold receivePayload
  dsimp only
  split
  · rfl
  split
  · split
    · rfl
    · exact htaken _
  split
  · exact htaken payload
  · unfold bufferReceived
    split <;> rfl

/-- Payload and FIN leave an open connection upright, unless they end it. -/
theorem handleData_upright (h : Upright c) (hopen : c.state.isOpen = true) (turn : Turn)
    (seg : VMSegment) :
    (c.handleData cfg turn seg).Current → Upright (c.handleData cfg turn seg) := by
  have hpeer := receivePayload_peerFin cfg turn c.recv seg.seqNum seg.payload
  have hs := not_synSent_of_isOpen hopen
  unfold handleData
  cases c.direction with
  | outbound =>
      obtain ⟨hp, hcore, -⟩ := handleTCPPayload_spec cfg turn c seg
      have hpaid := h.passive hp ((congrArg ReceiveCore.peerFin hcore).trans hpeer)
        fun hsyn => absurd hsyn hs
      unfold handleTCPData
      dsimp only
      split
      · exact fun _ => hpaid
      · exact handleTCPFin_upright hpaid seg
  | reverse =>
      obtain ⟨hp, hcore, -⟩ := handleReverseTCPPayload_spec cfg turn c seg
      have hpaid := h.passive hp ((congrArg ReceiveCore.peerFin hcore).trans hpeer)
        fun hsyn => absurd hsyn hs
      unfold handleReverseTCPData
      dsimp only
      split
      · exact fun _ => hpaid
      · exact handleReverseTCPFin_upright hpaid seg

theorem resetDup_evolves (h : c.Sending cfg) (windowChanged : Bool) :
    Evolves cfg c (c.resetDup windowChanged) := by
  unfold resetDup
  split
  · exact .of_stream { h with } rfl rfl rfl
  · exact .refl h

theorem Ready.resetDup (h : Ready cfg c) (windowChanged : Bool) :
    Ready cfg (c.resetDup windowChanged) := by
  unfold Conn.resetDup
  split
  · exact h.withDup 0
  · exact h

/-- What the parts of a handler leave of an open connection before the payload. -/
structure Proceeded (cfg : Settings) (c : Conn) (seg : VMSegment) (c' : Conn) (done : Bool) :
    Prop where
  sent : Sequences c c'
  outcome : done = true ∧ ¬c'.Current ∧ c.recv.peerFin = true ∧
      c'.recv.core.delivered = c.recv.core.delivered ∨
    Live cfg c' ∧ c'.recv = c.recv ∧ c'.context = c.context ∧ c'.state.isOpen = true ∧
      (done = false ↔ (seg.ack = true → c.Acceptable seg.ackNum)) ∧
      (Upright c → Upright c' ∧ (seg.ack = true → ¬c.Closes seg.ackNum))

/-- The connection after the acknowledgement is live and sends. -/
theorem Proceeded.of_evolves {c₁ : Conn} {status : AckStatus}
    (hnoted : Noted cfg c seg status c₁) (hopen : c.state.isOpen = true)
    (hlive : Live cfg c') (hev : Evolves cfg c₁ c') (hsent : Sequences c₁ c')
    (hwaits : status ≠ .future ∧ status ≠ .stale)
    (hboth : Upright c → c₁.bothClosed = false) : Proceeded cfg c seg c' false := by
  have hopen₁ : c₁.state.isOpen = true := by
    rw [hnoted.state]
    exact hopen
  refine ⟨hnoted.sent.trans hsent, .inr ⟨hlive, hev.recv.trans hnoted.recv,
    hev.context.trans hnoted.context, hev.isOpen hopen₁, ?_, fun hup => ?_⟩⟩
  · exact iff_of_true rfl fun _ => hnoted.acceptable.mp hwaits
  · refine ⟨(hup.keep (hboth hup) (by rw [hnoted.recv]) (fun _ => by rw [hnoted.recv])
      (.inl hnoted.state)).evolves hnoted.ready.sending hev, fun _ hcloses => ?_⟩
    have hclosed := (hnoted.closes hup.notBoth hcloses).2
    exact Bool.false_ne_true ((hboth hup).symm.trans hclosed)

/-- An acknowledgement that is ignored, and the handler with it. -/
theorem Proceeded.ignored {c₁ : Conn} {status : AckStatus} (hack : seg.ack = true)
    (hnoted : Noted cfg c seg status c₁) (hopen : c.state.isOpen = true)
    (hignored : status = .future ∨ status = .stale) : Proceeded cfg c seg c₁ true := by
  have hne : status ≠ .advanced := by
    rcases hignored with rfl | rfl <;> decide
  refine ⟨hnoted.sent, .inr ⟨hnoted.live hne, hnoted.recv, hnoted.context,
    by rw [hnoted.state]; exact hopen, ?_, fun hup => ?_⟩⟩
  · refine iff_of_false (by decide) fun hacceptable => ?_
    obtain ⟨hfuture, hstale⟩ := hnoted.acceptable.mpr (hacceptable hack)
    exact hignored.elim hfuture hstale
  · exact ⟨hup.keep (hnoted.stays hne hup.notBoth) (by rw [hnoted.recv])
      (fun _ => by rw [hnoted.recv]) (.inl hnoted.state),
      fun _ hcloses => hne (hnoted.closes hup.notBoth hcloses).1⟩

theorem Proceeded.finished {c₁ : Conn} {status : AckStatus}
    (hnoted : Noted cfg c seg status c₁) (hboth : c₁.bothClosed = true)
    (hsent : c'.sent = c₁.sent) (hgone : ¬c'.Current)
    (hdelivered : c'.recv.core.delivered = c₁.recv.core.delivered) :
    Proceeded cfg c seg c' true := by
  refine ⟨hnoted.sent.trans (.of_sent hsent), .inl ⟨rfl, hgone, ?_, ?_⟩⟩
  · rw [← hnoted.recv]
    exact ((bothClosed_iff c₁).mp hboth).1
  · rw [hdelivered, hnoted.recv]

/-- What `handleTCP` does between the acknowledgement and the payload: it goes
on to it, or returns, by one of the listed causes. -/
theorem proceedTCP_spec {c₁ : Conn} {status : AckStatus} (hnoted : Noted cfg c seg status c₁)
    (hdir : c.direction = .outbound) (hopen : c.state.isOpen = true) (hack : seg.ack = true)
    (turn : Turn) (windowChanged : Bool) :
    ∃ c₂ done, c₁.proceedTCP cfg turn status windowChanged = .ok (c₂, done) ∧
      Proceeded cfg c seg c₂ done := by
  have hdir₁ : c₁.direction = .outbound := (congrArg Context.direction hnoted.context).trans hdir
  have hopen₁ : c₁.state.isOpen = true := by
    rw [hnoted.state]
    exact hopen
  unfold proceedTCP
  split
  · rename_i hignored
    exact ⟨c₁, true, rfl, .ignored hack hnoted hopen hignored⟩
  rename_i hwaits
  rw [not_or] at hwaits
  split
  · split
    · rename_i hboth
      have hsent : c₁.finishTCPConnection.sent = c₁.sent := by
        unfold finishTCPConnection
        split <;> rfl
      exact ⟨_, true, rfl, .finished hnoted hboth hsent (finishTCPConnection_not_current c₁)
        (finishTCPConnection_delivered c₁)⟩
    · rename_i hboth
      have hready := hnoted.ready.resetDup windowChanged
      have hev₁ := resetDup_evolves hnoted.ready.sending windowChanged
      have hsent₁ : Sequences c₁ (c₁.resetDup windowChanged) := by
        unfold resetDup
        split <;> exact .of_sent rfl
      obtain ⟨c₂, hok, hlive, hev, -⟩ := hready.trySend turn fun hs =>
        absurd hs (not_synSent_of_isOpen (hev₁.isOpen hopen₁))
      rw [trySend_outbound (hev₁.direction.trans hdir₁)] at hok
      rw [hok]
      have hpushed := trySendToVM_pushed hready.sending.tracked hok
      exact ⟨c₂, false, rfl, .of_evolves hnoted hopen hlive (hev₁.trans hev)
        (hsent₁.trans hpushed.sent) hwaits fun _ => Bool.eq_false_iff.mpr hboth⟩
  · rename_i hidle
    have hne : status ≠ .advanced := fun he => hidle (.inl he)
    exact ⟨c₁, false, rfl, .of_evolves hnoted hopen (hnoted.live hne) (.refl hnoted.ready.sending)
      (.refl c₁) hwaits fun hup => hnoted.stays hne hup.notBoth⟩

/-- The send loop of a reverse connection, which runs in every open state. -/
theorem Ready.trySendReverse (h : Ready cfg c) (hdir : c.direction = .reverse)
    (hopen : c.state.isOpen = true) (turn : Turn) :
    ∃ c', c.trySendReverseToVM cfg turn = .ok c' ∧ Live cfg c' ∧ Evolves cfg c c' ∧
      Sequences c c' := by
  obtain ⟨c', hok, hlive, hev, -⟩ := h.trySend turn fun hs =>
    absurd hs (not_synSent_of_isOpen hopen)
  rw [trySend_reverse hdir] at hok
  exact ⟨c', hok, hlive, hev, (trySendReverseToVM_pushed h.sending.tracked hok).sent⟩

/-- The same part of `handleReverseTCP`, which runs the send loop for the window
and for the acknowledgement. -/
theorem proceedReverseTCP_spec {c₁ : Conn} {status : AckStatus}
    (hnoted : Noted cfg c seg status c₁) (hdir : c.direction = .reverse)
    (hopen : c.state.isOpen = true) (hack : seg.ack = true) (turn : Turn) (windowChanged : Bool) :
    ∃ c₂ done, c₁.proceedReverseTCP cfg turn status windowChanged = .ok (c₂, done) ∧
      Proceeded cfg c seg c₂ done := by
  have hdir₁ : c₁.direction = .reverse := (congrArg Context.direction hnoted.context).trans hdir
  have hopen₁ : c₁.state.isOpen = true := by
    rw [hnoted.state]
    exact hopen
  unfold proceedReverseTCP
  split
  · rename_i hignored
    exact ⟨c₁, true, rfl, .ignored hack hnoted hopen hignored⟩
  rename_i hwaits
  rw [not_or] at hwaits
  split
  · rename_i hboth
    have hsent : c₁.finishReverseConnection.sent = c₁.sent := by
      unfold finishReverseConnection
      split <;> rfl
    exact ⟨_, true, rfl,
      .finished hnoted hboth.2 hsent (finishReverseConnection_not_current c₁)
        (finishReverseConnection_delivered c₁)⟩
  rename_i hboth
  -- The first send loop runs after an acknowledgement that advanced.
  obtain ⟨c₂, hok, hlive, hev, hsent⟩ : ∃ c₂, (if status = .advanced then
      c₁.trySendReverseToVM cfg turn else .ok c₁) = .ok c₂ ∧ Live cfg c₂ ∧ Evolves cfg c₁ c₂ ∧
      Sequences c₁ c₂ := by
    split
    · exact hnoted.ready.trySendReverse hdir₁ hopen₁ turn
    · rename_i hne
      exact ⟨c₁, rfl, hnoted.live hne, .refl hnoted.ready.sending, .refl c₁⟩
  have hnot : Upright c → c₁.bothClosed = false := by
    intro hup
    by_cases hadvanced : status = .advanced
    · exact Bool.eq_false_iff.mpr fun hb => hboth ⟨hadvanced, hb⟩
    · exact hnoted.stays hadvanced hup.notBoth
  rw [hok]
  cases windowChanged with
  | false => exact ⟨c₂, false, rfl, .of_evolves hnoted hopen hlive hev hsent hwaits hnot⟩
  | true =>
      have hev₂ := hev.trans (resetDup_evolves hlive.sending true)
      obtain ⟨c₃, hok₃, hlive₃, hev₃, hsent₃⟩ := (hlive.toReady.resetDup true).trySendReverse
        (hev₂.direction.trans hdir₁) (hev₂.isOpen hopen₁) turn
      have hreset : Sequences c₂ (c₂.resetDup true) := .of_sent rfl
      refine ⟨c₃, false, ?_, .of_evolves hnoted hopen hlive₃ (hev₂.trans hev₃)
        ((hsent.trans hreset).trans hsent₃) hwaits hnot⟩
      dsimp only
      rw [if_pos rfl, hok₃]
      rfl

/-- The parts of a handler on an open connection, in either direction. -/
theorem handleParts_spec (h : Live cfg c) (hopen : c.state.isOpen = true) (turn : Turn)
    {proceed : Conn → AckStatus → Bool → Outcome (Conn × Bool)}
    (data : Conn → VMSegment → Conn)
    (hproceed : seg.ack = true → ∀ c₁ status windowChanged, Noted cfg c seg status c₁ →
      ∃ c₂ done, proceed c₁ status windowChanged = .ok (c₂, done) ∧ Proceeded cfg c seg c₂ done) :
    ∃ c₁ done, c.handleParts cfg turn proceed data seg =
        .ok (if done then c₁ else data c₁ seg) ∧ Proceeded cfg c seg c₁ done := by
  unfold handleParts
  by_cases hack : seg.ack = true
  · rw [if_neg (by simp [hack])]
    obtain ⟨c₁, status, windowChanged, hok, hnoted⟩ := h.noteAck turn seg
    obtain ⟨c₂, done, hok₂, hproceeded⟩ := hproceed hack c₁ status windowChanged hnoted
    refine ⟨c₂, done, ?_, hproceeded⟩
    rw [hok]
    dsimp only
    rw [hok₂]
    cases done <;> rfl
  · rw [if_pos (by simpa using hack)]
    exact ⟨c, false, rfl, .refl c,
      .inr ⟨h, rfl, rfl, hopen, iff_of_true rfl fun ha => absurd ha hack,
        fun hup => ⟨hup, fun ha => absurd ha hack⟩⟩⟩

/-- Where the handler goes on, the connection has the direction it had. -/
theorem Proceeded.direction (h : Proceeded cfg c seg c' false) : c'.direction = c.direction := by
  obtain ⟨hyes, -⟩ | ⟨-, -, hctx, -⟩ := h.outcome
  · cases hyes
  · exact congrArg Context.direction hctx

theorem handleTCP_open (h : Live cfg c) (hdir : c.direction = .outbound)
    (hopen : c.state.isOpen = true) (hsyn : (seg.syn && !seg.ack) = false)
    (hrst : seg.rst = false) (turn : Turn) :
    ∃ c₁ done, c.handleTCP cfg turn seg =
        .ok (if done then c₁ else c₁.handleData cfg turn seg) ∧ Proceeded cfg c seg c₁ done := by
  rw [handleTCP_eq hopen hsyn hrst]
  obtain ⟨c₁, done, hok, hproceeded⟩ := handleParts_spec h hopen turn
    (handleTCPData cfg turn) fun hack c₁ status windowChanged hnoted =>
      proceedTCP_spec hnoted hdir hopen hack turn windowChanged
  refine ⟨c₁, done, hok.trans ?_, hproceeded⟩
  cases done with
  | true => rfl
  | false => rw [handleData, hproceeded.direction, hdir]

/-- `handleReverseTCP` on an open connection, as its parts one after another. -/
theorem handleReverseTCP_open (h : Live cfg c) (hdir : c.direction = .reverse)
    (hopen : c.state.isOpen = true) (hsyn : (seg.syn && seg.ack) = false)
    (hrst : seg.rst = false) (turn : Turn) :
    ∃ c₁ done, c.handleReverseTCP cfg turn seg =
        .ok (if done then c₁ else c₁.handleData cfg turn seg) ∧ Proceeded cfg c seg c₁ done := by
  rw [handleReverseTCP_eq hopen hsyn hrst]
  obtain ⟨c₁, done, hok, hproceeded⟩ := handleParts_spec (h.withIdleTimer true) hopen turn
    (handleReverseTCPData cfg turn) fun hack c₁ status windowChanged hnoted =>
      proceedReverseTCP_spec hnoted hdir hopen hack turn windowChanged
  refine ⟨c₁, done, hok.trans ?_, hproceeded.sent, hproceeded.outcome.imp_right ?_⟩
  · cases done with
    | true => rfl
    | false => rw [handleData, hproceeded.direction, hdir]
  · rintro ⟨hlive, hrecv, hctx, hopen₁, hdone, hup⟩
    exact ⟨hlive, hrecv, hctx, hopen₁, hdone,
      fun hu => hup ⟨hu.notBoth, hu.closing, hu.handshake⟩⟩

/-- A segment on an open connection, for both directions. -/
theorem onSegment_open (h : Live cfg c) (hopen : c.state.isOpen = true) (hsyn : seg.syn = false)
    (hrst : seg.rst = false) (turn : Turn) :
    ∃ c₁ done, c.onSegment cfg turn seg =
        .ok (if done then c₁ else c₁.handleData cfg turn seg) ∧ Proceeded cfg c seg c₁ done := by
  unfold onSegment
  cases hdir : c.direction with
  | outbound => exact handleTCP_open h hdir hopen (by simp [hsyn]) hrst turn
  | reverse => exact handleReverseTCP_open h hdir hopen (by simp [hsyn]) hrst turn

/-- What a segment does to an open connection, by what it brings. -/
theorem Live.onSegment_cases (h : Live cfg c) (hopen : c.state.isOpen = true)
    (hok : c.onSegment cfg turn seg = .ok c') :
    ¬c'.Current ∨
      (c.direction = .outbound ∧ (seg.syn && !seg.ack) = true ∧ c' = c) ∨
      (c.direction = .reverse ∧ (seg.syn && seg.ack) = true ∧
        c' = ({ c with idleTimer := true } : Conn).sendTCPAck cfg) ∨
      ∃ c₁ done, c' = (if done then c₁ else c₁.handleData cfg turn seg) ∧
        Proceeded cfg c seg c₁ done := by
  have hs := not_synSent_of_isOpen hopen
  unfold onSegment at hok
  cases hdir : c.direction with
  | outbound =>
      rw [hdir] at hok
      dsimp only at hok
      by_cases hsyn : (seg.syn && !seg.ack) = true
      · rw [handleTCP, if_pos hsyn, if_neg hs] at hok
        cases hok
        exact .inr (.inl ⟨rfl, hsyn, rfl⟩)
      by_cases hrst : seg.rst = true
      · rw [handleTCP, if_neg hsyn, if_pos hrst] at hok
        cases hok
        exact .inl fun hcurrent => absurd hcurrent.1
          (Bool.eq_false_iff.mp (abortTCPConnection_registered turn hdir false))
      obtain ⟨c₁, done, hd, hproceeded⟩ := handleTCP_open h hdir hopen
        (Bool.eq_false_iff.mpr hsyn) (Bool.eq_false_iff.mpr hrst) turn
      exact .inr (.inr (.inr ⟨c₁, done, Except.ok.inj (hok.symm.trans hd), hproceeded⟩))
  | reverse =>
      rw [hdir] at hok
      dsimp only at hok
      by_cases hrst : seg.rst = true
      · rw [handleReverseTCP, if_pos hrst] at hok
        cases hok
        exact .inl fun hcurrent => absurd hcurrent.1 (Bool.eq_false_iff.mp
          (abortReverseConnection_registered (c := { c with idleTimer := true }) turn hdir false))
      by_cases hsyn : (seg.syn && seg.ack) = true
      · rw [handleReverseTCP, if_neg hrst, if_neg hs, if_pos hsyn] at hok
        cases hok
        exact .inr (.inr (.inl ⟨rfl, hsyn, by rw [← hdir]⟩))
      obtain ⟨c₁, done, hd, hproceeded⟩ := handleReverseTCP_open h hdir hopen
        (Bool.eq_false_iff.mpr hsyn) (Bool.eq_false_iff.mpr hrst) turn
      exact .inr (.inr (.inr ⟨c₁, done, Except.ok.inj (hok.symm.trans hd), hproceeded⟩))

/-- A SYN on an outbound connection, a SYN-ACK on a reverse one: the handler
answers it and returns. -/
def repeatsHandshake (c : Conn) (seg : VMSegment) : Bool :=
  match c.direction with
  | .outbound => seg.syn && !seg.ack
  | .reverse => seg.syn && seg.ack

/-- The handler of an open connection returns before it looks at the payload:
after a reset, a repeated SYN or SYN-ACK, or an acknowledgement number that is
stale or lies in the future. -/
def Drops (c : Conn) (seg : VMSegment) : Prop :=
  seg.rst = true ∨ c.repeatsHandshake seg = true ∨ seg.ack = true ∧ ¬c.Acceptable seg.ackNum

instance : Decidable (c.Drops seg) :=
  inferInstanceAs (Decidable (_ ∨ _ ∨ _ ∧ ¬_))

/-- After a segment on an open connection nobody has been overlooked. -/
theorem Proceeded.upright {done : Bool} (h : Proceeded cfg c seg c' done) (hup : Upright c)
    (turn : Turn) : (if done then c' else c'.handleData cfg turn seg).Current →
      Upright (if done then c' else c'.handleData cfg turn seg) := by
  obtain ⟨rfl, hgone, -⟩ | ⟨-, -, -, hopen, -, hkeep⟩ := h.outcome
  · exact fun hcurrent => absurd hcurrent hgone
  · cases done with
    | true => exact fun _ => (hkeep hup).1
    | false => exact handleData_upright (hkeep hup).1 hopen turn seg

theorem GivenUp.not_current (h : GivenUp c c') : ¬c'.Current := fun hcurrent =>
  Bool.false_ne_true (h.registered.symm.trans hcurrent.1)

theorem Finished.not_current (h : Finished cfg c) : ¬c.Current := fun hcurrent =>
  hcurrent.2 h.state

/-- A segment of the handshake. -/
theorem Received.upright (h : Received cfg turn c seg c') (hup : Upright c)
    (hs : c.state = .synSent) : c'.Current → Upright c' := by
  have hpeer : c.recv.peerFin = false := Bool.eq_false_iff.mpr fun hp => (hup.closing hp).1 hs
  have hbuffer := hup.handshake hs
  cases h with
  | ended gone delivered reason =>
      intro hcurrent
      rcases gone with hgone | hfinished
      · exact absurd (hgone.symm.trans hcurrent.1) Bool.false_ne_true
      · exact absurd hcurrent hfinished.not_current
  | idle live moves context stays reason =>
      exact fun _ => .of_open ((peerFin_of_context context).trans hpeer)
        fun _ => (congrArg (fun k => k.recv.vmOutOfOrder) context).trans hbuffer
  | handshake live moves start syn context =>
      exact fun _ => .of_open ((congrArg (fun k => k.recv.peerFin) context).trans hpeer)
        fun _ => (congrArg (fun k => k.recv.vmOutOfOrder) context).trans hbuffer
  | data live moves context isOpen reason past =>
      exact handleData_upright (.of_open ((peerFin_of_context context).trans hpeer)
        fun hsyn => absurd hsyn (not_synSent_of_isOpen isOpen)) isOpen turn seg

theorem Live.segment_upright (h : Live cfg c) (hup : Upright c)
    (hok : c.onSegment cfg turn seg = .ok c') : c'.Current → Upright c' := by
  by_cases hs : c.state = .synSent
  · obtain ⟨d, hd, hreceived⟩ := onSegment_spec h turn seg
    obtain rfl := Except.ok.inj (hok.symm.trans hd)
    exact hreceived.upright hup hs
  obtain hgone | ⟨-, -, rfl⟩ | ⟨-, -, rfl⟩ | ⟨c₁, done, rfl, hproceeded⟩ :=
    h.onSegment_cases (h.isOpen hs) hok
  · exact fun hcurrent => absurd hcurrent hgone
  · exact fun _ => hup
  · have hbumped : Upright { c with idleTimer := true } :=
      ⟨hup.notBoth, hup.closing, hup.handshake⟩
    exact fun _ => hbumped.acks (sendTCPAck_passive cfg _) (sendTCPAck_core cfg _)
  · exact hproceeded.upright hup turn

/-- A callback that ends in the send loop. -/
theorem Upright.drains (h : Upright c) (hlive : Live cfg c) (hcan : c.CanOccur event)
    (hdrains : Drains event) (hok : c.handle cfg turn event = .ok c') : Upright c' := by
  have hany : ∀ (s : State Item Byte) (a : Action Byte), Proper s a → True :=
    fun _ _ _ => trivial
  obtain ⟨c₁, hhandle, hready, hprepared, -⟩ :=
    hlive.drains turn hcan hany (fun _ _ _ => trivial) hdrains
  have hup : Upright c₁ := by
    refine h.keep ?_ (by rw [hprepared.recv]) (fun _ => by rw [hprepared.recv])
      (.inl hprepared.state)
    rw [bothClosed, hprepared.recv, hprepared.finSent, hprepared.retransmission]
    exact h.notBoth
  obtain ⟨d, hd, -, hev, -⟩ := hready.trySend turn fun hs => by
    rw [hprepared.retransmission]
    exact hlive.awaiting (hprepared.state.symm.trans hs)
  obtain rfl := Except.ok.inj (hok.symm.trans (hhandle.trans hd))
  exact hup.evolves hready.sending hev

/-- A callback that is no segment leaves an upright connection upright, or ends
it. -/
theorem Live.other_upright (h : Live cfg c) (hup : Upright c) (hcan : c.CanOccur event)
    (hother : ∀ seg, event ≠ .segment seg) (hok : c.handle cfg turn event = .ok c') :
    c'.Current → Upright c' := by
  by_cases hdrains : Drains event
  · exact fun _ => hup.drains h hcan hdrains hok
  cases event with
  | segment seg => exact absurd rfl (hother seg)
  | endpointError =>
      cases hok
      exact fun hcurrent => absurd hcurrent (abort_givenUp cfg turn c true).not_current
  | sinkDrain =>
      cases hok
      have hdelivered := (onTCPReceiveDrain_delivered cfg c).1
      exact fun _ => hup.passive (onTCPReceiveDrain_passive cfg c)
        (congrArg Delivered.peerFin hdelivered)
        fun _ => congrArg (fun recv : Delivered => recv.vmOutOfOrder) hdelivered
  | sinkEnd =>
      cases hok
      exact fun _ => hup.passive (.withRecv c _) rfl fun _ => rfl
  | retransmissionTimer generation =>
      cases hok
      have hany : ∀ (s : State Item Byte) (a : Action Byte), Proper s a → True :=
        fun _ _ _ => trivial
      obtain ⟨-, hover⟩ | hfired :=
        fireRetransmissionTimer_spec turn generation hany (fun _ => trivial) h
      · exact fun hcurrent => absurd hcurrent hover.not_current
      · have hrecv : (c.fireRetransmissionTimer cfg turn generation).recv = c.recv :=
          congrArg Frame.recv hfired.frame
        have hacked : (c.fireRetransmissionTimer cfg turn generation).send.acknowledged =
            c.send.acknowledged := congrArg Frame.acknowledged hfired.frame
        have hprefix := history_prefix_of_reaches
          (hfired.moves.imp fun _ hrun => hrun.unrestrict)
        have hnot := h.sending.not_bothClosed hfired.sending hprefix hacked (by rw [hrecv])
          hup.notBoth
        exact fun _ => hup.keep hnot (by rw [hrecv]) (fun _ => by rw [hrecv]) hfired.state
  | ackTimer =>
      cases hok
      exact fun _ => hup.acks (fireAckTimer_passive cfg c) (fireAckTimer_core cfg c)
  | idleTimer =>
      cases hok
      exact fun hcurrent => absurd hcurrent
        (abort_givenUp cfg turn { c with idleTimer := false } true).not_current
  | removalTimer =>
      cases hok
      exact fun hcurrent => absurd hcurrent.1 Bool.false_ne_true
  | transportFlush =>
      cases hok
      exact fun _ => ⟨hup.notBoth, hup.closing, hup.handshake⟩
  | otherTraffic rateLimiter =>
      cases hok
      exact fun _ => ⟨hup.notBoth, hup.closing, hup.handshake⟩
  | _ => exact absurd trivial hdrains

/-- A connection that is current after a callback was live before it. -/
theorem Inv.live_before (h : Inv cfg c) {label : Turn × Event} (hstep : Step cfg c label c')
    (hcurrent : c'.Current) : Live cfg c := by
  obtain ⟨turn, event⟩ := label
  obtain ⟨⟨hreg, hcan⟩, hok⟩ := hstep
  refine (h hreg).resolve_right fun hfinished => ?_
  obtain ⟨d, hd, hout, -⟩ := hfinished.handle turn hcan
  obtain rfl := Except.ok.inj (hok.symm.trans hd)
  rcases hout with hgone | hover
  · exact absurd (hgone.symm.trans hcurrent.1) Bool.false_ne_true
  · exact absurd hcurrent hover.not_current

theorem Live.current (h : Live cfg c) : c.Current := ⟨h.registered, h.sending.notClosed⟩

theorem Inv.upright_step (h : Inv cfg c) (hup : c.Current → Upright c)
    {label : Turn × Event} (hstep : Step cfg c label c') : c'.Current → Upright c' := by
  intro hcurrent
  have hlive := h.live_before hstep hcurrent
  have hbefore := hup hlive.current
  obtain ⟨turn, event⟩ := label
  obtain ⟨⟨-, hcan⟩, hok⟩ := hstep
  cases event with
  | segment seg => exact hlive.segment_upright hbefore hok hcurrent
  | _ => exact hlive.other_upright hbefore hcan (by rintro seg ⟨⟩) hok hcurrent

theorem Opened.upright (h : Opened cfg c) : Upright c := by
  have huntouched := h.untouched
  exact .of_open (congrArg Delivered.peerFin huntouched)
    fun _ => congrArg (fun recv : Delivered => recv.vmOutOfOrder) huntouched

/-- No reachable connection is closed on both sides while it is still current. -/
theorem Reachable.upright (h : Reachable cfg c) (hcurrent : c.Current) : Upright c := by
  obtain ⟨c₀, hopen, labels, hrun⟩ := h
  have hall := hrun.invariant (P := fun c => Inv cfg c ∧ (c.Current → Upright c))
    (fun _ _ _ hinv hstep => ⟨hinv.1.step hstep, hinv.1.upright_step hinv.2 hstep⟩)
    ⟨hopen.inv, fun _ => hopen.upright⟩
  exact hall.2 hcurrent

/-- The payload part keeps the buffer sound. -/
theorem receivePayload_sound {recv : ReceiveSide} (h : recv.toReassembly.Sound cfg.receiveCapacity)
    (turn : Turn) (seqNum : Seq) {payload : Bytes} (hlen : payload.length < 65536) :
    (receivePayload cfg turn recv seqNum payload).1.toReassembly.Sound cfg.receiveCapacity := by
  have htaken : ∀ {payload : Bytes}, payload.length < 65536 →
      (acceptPayload turn recv payload).1.toReassembly.Sound cfg.receiveCapacity := by
    intro payload hlen
    obtain ⟨drained, haccepted, -⟩ := acceptPayload_spec turn h hlen
    exact haccepted.sound
  unfold receivePayload
  dsimp only
  split
  · exact h
  split
  · split
    · exact h
    · refine htaken ?_
      rw [List.length_drop]
      omega
  split
  · exact htaken hlen
  · unfold bufferReceived
    split
    · exact h
    · exact (h.bufferTCPOutOfOrder (receiveCapacity_le cfg) seqNum payload).1

/-- Payload and FIN keep the buffer sound, as long as the VM has not finished. -/
theorem receiveData_sound {recv : ReceiveSide} (h : recv.toReassembly.Sound cfg.receiveCapacity)
    (turn : Turn) (seg : VMSegment) (hopen : (receiveData cfg turn recv seg).peerFin = false) :
    (receiveData cfg turn recv seg).toReassembly.Sound cfg.receiveCapacity := by
  have hpaid := receivePayload_sound h turn seg.seqNum seg.payload_fits
  unfold receiveData at hopen ⊢
  dsimp only at hopen ⊢
  split
  · exact hpaid
  · rename_i hdone
    rw [if_neg hdone] at hopen
    obtain ⟨-, he⟩ | ⟨-, -, he⟩ := receiveFin_cases
      (receivePayload cfg turn recv seg.seqNum seg.payload).1.core seg
    · rw [he]
      exact hpaid
    · rw [he] at hopen
      cases hopen

theorem peerFin_of_receiveData {recv : ReceiveSide} (cfg : Settings) (turn : Turn)
    (seg : VMSegment) (hopen : (receiveData cfg turn recv seg).peerFin = false) :
    recv.peerFin = false := by
  have hpeer := receivePayload_peerFin cfg turn recv seg.seqNum seg.payload
  unfold receiveData at hopen
  dsimp only at hopen
  split at hopen
  · exact hpeer.symm.trans hopen
  · obtain ⟨-, he⟩ | ⟨-, -, he⟩ := receiveFin_cases
      (receivePayload cfg turn recv seg.seqNum seg.payload).1.core seg
    · rw [he] at hopen
      exact hpeer.symm.trans hopen
    · rw [he] at hopen
      cases hopen

/-- Before its FIN, what the VM has sent early is buffered soundly. -/
theorem Inv.sound_step (h : Inv cfg c) (hup : c.Current → Upright c) {label : Turn × Event}
    (hstep : Step cfg c label c')
    (hsound : c.recv.peerFin = false → c.recv.toReassembly.Sound cfg.receiveCapacity)
    (hopen : c'.recv.peerFin = false) : c'.recv.toReassembly.Sound cfg.receiveCapacity := by
  obtain hsame | ⟨seg, -, ⟨-, hstart, -, hrecv⟩ | ⟨recv, hcore, hrecv, -⟩⟩ :=
    h.delivered_cases hstep
  · have hreassembly : c'.recv.toReassembly = c.recv.toReassembly :=
      congrArg Delivered.toReassembly hsame
    rw [hreassembly]
    exact hsound ((congrArg Delivered.peerFin hsame).symm.trans hopen)
  · have hbefore := hsound ((congrArg ReceiveCore.peerFin hrecv).symm.trans hopen)
    have hnil := (hup ⟨hstep.1.1, by rw [hstart]; decide⟩).handshake hstart
    have hreassembly : c'.recv.toReassembly =
        { c.recv.toReassembly with vmSeq := seg.seqNum + 1 } :=
      congrArg ReceiveCore.toReassembly hrecv
    rw [hreassembly]
    refine ⟨?_, hbefore.bytes⟩
    change Reassembly.Buffered _ _ c.recv.vmOutOfOrder
    rw [hnil]
    exact ⟨by simp, by simp, .nil⟩
  · have hreassembly : c'.recv.toReassembly = (receiveData cfg label.1 recv seg).toReassembly :=
      congrArg ReceiveCore.toReassembly hrecv
    have hopen' := (congrArg ReceiveCore.peerFin hrecv).symm.trans hopen
    have hsame : recv.toReassembly = c.recv.toReassembly := congrArg ReceiveCore.toReassembly hcore
    rw [hreassembly]
    refine receiveData_sound ?_ label.1 seg hopen'
    rw [hsame]
    exact hsound ((congrArg ReceiveCore.peerFin hcore).symm.trans
      (peerFin_of_receiveData cfg label.1 seg hopen'))

theorem Reachable.sound (h : Reachable cfg c) (hopen : c.recv.peerFin = false) :
    c.recv.toReassembly.Sound cfg.receiveCapacity := by
  obtain ⟨c₀, hopened, labels, hrun⟩ := h
  have hstart : c₀.recv.toReassembly.Sound cfg.receiveCapacity := by
    have hreassembly : c₀.recv.toReassembly = { vmSeq := c₀.recv.vmSeq } :=
      congrArg Delivered.toReassembly hopened.untouched
    rw [hreassembly]
    exact ⟨⟨by simp, by simp, .nil⟩, rfl⟩
  have hall := hrun.invariant (P := fun c => Inv cfg c ∧ (c.Current → Upright c) ∧
      (c.recv.peerFin = false → c.recv.toReassembly.Sound cfg.receiveCapacity))
    (fun _ _ _ hinv hstep => ⟨hinv.1.step hstep, hinv.1.upright_step hinv.2.1 hstep,
      hinv.1.sound_step hinv.2.1 hstep hinv.2.2⟩)
    ⟨hopened.inv, fun _ => hopened.upright, fun _ => hstart⟩
  exact hall.2.2 hopen

end Conn

end RootlessRelay
