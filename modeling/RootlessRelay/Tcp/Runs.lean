import RootlessRelay.Tcp.Steps

/-!
# Runs of a connection

Every callback the host can run returns normally and leaves a connection that is
live, finished, or no longer held by the session. So every reachable connection
is one of the three, and what `Live` says about the sending side holds between
any two events.

`Inv` is the invariant and `Inv.progress` its step lemma; the induction over
runs is the library's. The end of the module is about runs on fixed inputs:
`execute` decides them, and `exists_run` and its variants turn a computed run
into one of the relation, for the examples and counterexamples of other modules.
-/

namespace RootlessRelay

open SequenceSpace Transition SendStream

namespace Conn

variable {cfg : Settings} {turn : Turn} {c c' c'' : Conn} {event : Event}
  {allowed : State Item Byte → Action Byte → Prop}

/-- What a segment leaves of a live connection, as far as the sending side is
concerned. -/
theorem Received.outcome {seg : VMSegment} (hreceived : Received cfg turn c seg c') :
    c'.registered = false ∨ Finished cfg c' ∨ Live cfg c' ∧ Moves Proper c c' := by
  cases hreceived with
  | ended gone => exact gone.elim .inl fun hf => .inr (.inl hf)
  | idle live moves => exact .inr (.inr ⟨live, moves⟩)
  | handshake live moves => exact .inr (.inr ⟨live, moves⟩)
  | @data c₁ live moves _ isOpen =>
      rcases (handleData_spec live isOpen turn seg).outcome with ⟨hover, -⟩ | ⟨hlive, hstream, -⟩
      · exact hover.elim .inl fun hf => .inr (.inl hf)
      · exact .inr (.inr ⟨hlive, moves.trans (.of_stream hstream)⟩)

theorem bumpActivity_reverse (hdir : c.direction = .reverse) :
    c.bumpActivity = { c with idleTimer := true } := by
  unfold bumpActivity
  split
  · rename_i houtbound
    exact absurd (hdir.symm.trans houtbound) (by decide)
  · rfl

/-- What a callback does to a connection that has finished: next to nothing. -/
structure Retired (cfg : Settings) (c c' : Conn) : Prop where
  outcome : c'.registered = false ∨ Finished cfg c'
  silent : Silent c c'
  delivered : c'.recv.core.delivered = c.recv.core.delivered

theorem Finished.of_eq (h : Finished cfg c) (hregistered : c'.registered = c.registered)
    (hdirection : c'.direction = c.direction) (hstate : c'.state = c.state)
    (hsend : c'.send = c.send) : Finished cfg c' := by
  constructor
  · exact hregistered.trans h.registered
  · exact hdirection.trans h.direction
  · exact hstate.trans h.state
  all_goals rw [hsend]
  exacts [h.closed, h.drained, h.segments, h.idle, h.cwnd, h.empty, h.noFin, h.stopped,
    h.sourceEnded]

theorem Finished.passive (h : Finished cfg c) (hp : Passive c c') : Finished cfg c' :=
  h.of_eq hp.registered hp.direction hp.state hp.send

/-- The send loop has nothing to do, since nothing of a finished connection
waits. -/
theorem Finished.trySend (h : Finished cfg c) (turn : Turn) :
    c.trySend cfg turn = .ok c := by
  rw [trySend_outbound h.direction, trySendToVM]
  split
  · rfl
  · have hpersist : ({ c with send := { c.send with sending := true } } : Conn).setPersist cfg turn
        ({ c with send := { c.send with sending := true } } : Conn).wantsPersist =
          { c with send := { c.send with sending := true } } := by
      rcases setPersist_cases cfg turn { c with send := { c.send with sending := true } }
        ({ c with send := { c.send with sending := true } } : Conn).wantsPersist with
        ⟨-, he⟩ | ⟨hopen, -⟩ | ⟨-, -, -, hopen, -⟩
      · exact he
      · exact absurd (hopen.symm.trans h.closed) Bool.false_ne_true
      · exact absurd (hopen.symm.trans h.closed) Bool.false_ne_true
    have hfin : c.maybeFin cfg = .ok c := by
      rw [maybeFin_eq, maybeSendFin, if_pos (by simp [h.noFin])]
    have hloop : ∀ c₁ : Conn, c₁.registered = true → c₁.send.sendQueue = [] →
        c₁.stopSending = c →
        drainLoop cfg turn true (c₁.send.sendQueueBytes + 1) 0 c₁ = .ok c := by
      intro c₁ hreg hempty hstop
      simp [drainLoop, drainStep, hreg, hempty, hstop, hfin, Except.map]
    unfold drainTCPToVM
    dsimp only
    rw [hpersist]
    refine hloop _ h.registered h.empty ?_
    unfold stopSending
    rw [show c = { c with send := { c.send with sending := false } } by rw [← h.stopped]]

/-- A segment is waited out, unless it resets the connection. -/
theorem Finished.handleTCP_cases (h : Finished cfg c) (turn : Turn) (seg : VMSegment) :
    c.handleTCP cfg turn seg = .ok (c.abortTCPConnection cfg turn false) ∨
      ∃ send, c.handleTCP cfg turn seg = .ok { c with send } ∧ Finished cfg { c with send } ∧
        send.enqueued = c.send.enqueued ∧ send.relayIsn = c.send.relayIsn := by
  have hwaits : ∀ {c : Conn}, Finished cfg c → ∀ status windowChanged,
      c.handleTCPState cfg turn seg status windowChanged = .ok c := by
    intro c h status windowChanged
    simp [handleTCPState, handleTCPEstablished, h.state, ConnState.isOpen]
  unfold Conn.handleTCP
  split
  · rw [if_neg (by simp [h.state])]
    exact .inr ⟨c.send, rfl, h, rfl, rfl⟩
  split
  · exact .inl rfl
  split
  · rw [hwaits h]
    exact .inr ⟨c.send, rfl, h, rfl, rfl⟩
  right
  -- Nothing is outstanding, so no acknowledgement number can advance.
  obtain ⟨q, status, he, hne, -, hq⟩ :=
    RetransmissionQueue.acknowledge_ignored c.send.retransmission seg.ackNum (by
      rw [h.drained]
      rw [distance_self]
      omega)
  have hidle : Finished cfg (c.withQueue q) ∧ q.items = c.send.retransmission.items := by
    rcases hq with rfl | ⟨-, rfl⟩
    · exact ⟨h, rfl⟩
    · exact ⟨{ h with }, rfl⟩
  have hack : c.acknowledge seg.ackNum = .ok (c.withQueue q, ⟨status, 0⟩) := by
    unfold acknowledge
    rw [he]
    dsimp only
    rw [hidle.2, Nat.sub_self, List.take_zero, List.append_nil]
    rfl
  rw [hack]
  dsimp only
  split
  · exact ⟨_, rfl, hidle.1, rfl, rfl⟩
  obtain ⟨vmWindow, windowUpdate, hwindow, -⟩ :=
    updateTCPWindow_eq (c.withQueue q) seg.seqNum seg.ackNum seg.window
  generalize (c.withQueue q).updateTCPWindow seg.seqNum seg.ackNum seg.window.toNat = result
    at hwindow ⊢
  obtain ⟨c₂, windowChanged⟩ := result
  dsimp only at hwindow ⊢
  have hfinished : Finished cfg c₂ := by
    rw [hwindow]
    exact { hidle.1 with }
  rw [if_neg (by simp [isDuplicateAck, RetransmissionQueue.hasOutstanding,
    hfinished.segments]), hwaits hfinished]
  rw [hwindow] at hfinished ⊢
  exact ⟨_, rfl, hfinished, rfl, rfl⟩

theorem Finished.handleTCP (h : Finished cfg c) (turn : Turn) (seg : VMSegment) :
    ∃ c', c.handleTCP cfg turn seg = .ok c' ∧ Retired cfg c c' := by
  obtain habort | ⟨send, hok, hfinished, -, -⟩ := h.handleTCP_cases turn seg
  · have hover := abort_givenUp cfg turn c false
    rw [abort, h.direction] at hover
    exact ⟨_, habort, .inl hover.registered, hover.sent, hover.delivered⟩
  · exact ⟨_, hok, .inr hfinished, .of_eq rfl, rfl⟩

/-- A connection that waits for its removal takes every event, and nothing comes
of it but the removal. -/
theorem Finished.handle (h : Finished cfg c) (turn : Turn) (hcan : c.CanOccur event) :
    ∃ c', c.handle cfg turn event = .ok c' ∧ Retired cfg c c' := by
  cases event with
  | segment seg =>
      simp only [Conn.handle, onSegment, h.direction]
      exact h.handleTCP turn seg
  | sourceData data => exact absurd (hcan.2.symm.trans h.sourceEnded) Bool.false_ne_true
  | sourceEnd => exact absurd (Eq.trans (Eq.symm hcan) h.sourceEnded) Bool.false_ne_true
  | localClose => exact absurd (hcan.1.symm.trans h.direction) (by decide)
  | endpointError =>
      have hover := abort_givenUp cfg turn c true
      exact ⟨_, rfl, .inl hover.registered, hover.sent, hover.delivered⟩
  | sinkDrain =>
      have hp := onTCPReceiveDrain_passive cfg c
      exact ⟨_, rfl, .inr (h.passive hp), hp.silent, (onTCPReceiveDrain_delivered cfg c).1⟩
  | sinkEnd => exact ⟨_, rfl, .inr (h.passive (.withRecv c _)), .of_eq rfl, rfl⟩
  | retransmissionTimer generation =>
      have hsame : c.fireRetransmissionTimer cfg turn generation = _ :=
        fireRetransmissionTimer_superseded cfg turn (.inr (.inl h.closed))
      exact ⟨_, congrArg _ hsame, .inr { h with }, .of_eq rfl, rfl⟩
  | pacerTimer =>
      have hfired : Finished cfg { c with send := { c.send with pacer := c.send.pacer.fireTimer } } :=
        { h with }
      exact ⟨_, hfired.trySend turn, .inr hfired, .of_eq rfl, rfl⟩
  | ackTimer =>
      have hp := fireAckTimer_passive cfg c
      exact ⟨_, rfl, .inr (h.passive hp), hp.silent,
        congrArg ReceiveCore.delivered (fireAckTimer_core cfg c)⟩
  | idleTimer =>
      have hover := abort_givenUp cfg turn { c with idleTimer := false } true
      exact ⟨_, rfl, .inl hover.registered, hover.sent, hover.delivered⟩
  | removalTimer => exact ⟨_, rfl, .inl rfl, .of_eq rfl, rfl⟩
  | rateRetry =>
      have hretried : Finished cfg
          { c with send := { c.send with rateRetries := c.send.rateRetries - 1 } } := { h with }
      exact ⟨_, hretried.trySend turn, .inr hretried, .of_eq rfl, rfl⟩
  | immediate =>
      have hresumed : Finished cfg
          { c with send := { c.send with immediates := c.send.immediates - 1 } } := { h with }
      exact ⟨_, hresumed.trySend turn, .inr hresumed, .of_eq rfl, rfl⟩
  | staleResume => exact ⟨_, h.trySend turn, .inr h, .of_eq rfl, rfl⟩
  | transportFlush => exact ⟨_, rfl, .inr { h with }, .of_eq rfl, rfl⟩
  | otherTraffic rateLimiter => exact ⟨_, rfl, .inr (h.of_eq rfl rfl rfl rfl), .of_eq rfl, rfl⟩

/-- What holds of every reachable connection: while the session holds it, it is
live or finished. -/
def Inv (cfg : Settings) (c : Conn) : Prop := c.registered = true → Live cfg c ∨ Finished cfg c

/-- A callback on a live connection returns, and ends it or moves the stream. -/
theorem Live.handle (allowed : State Item Byte → Action Byte → Prop) (h : Live cfg c)
    (turn : Turn) (hcan : c.CanOccur event) (hallowed : ∀ s a, Proper s a → allowed s a)
    (hadmits : c.Improper turn event → ∀ s a, allowed s a) :
    ∃ c', c.handle cfg turn event = .ok c' ∧
      (c'.registered = false ∨ Finished cfg c' ∨ Live cfg c' ∧ Moves allowed c c') := by
  by_cases hseg : ∃ seg, event = .segment seg
  · obtain ⟨seg, rfl⟩ := hseg
    obtain ⟨c', hok, hreceived⟩ := onSegment_spec h turn seg
    exact ⟨c', hok, hreceived.outcome.imp_right fun ho => ho.imp_right fun ⟨hlive, hmoves⟩ =>
      ⟨hlive, hmoves.mono hallowed⟩⟩
  · obtain ⟨c', hok, hcalled⟩ := h.calledBack allowed turn hcan hallowed hadmits
      fun seg he => hseg ⟨seg, he⟩
    exact ⟨c', hok, hcalled.outcome.imp_right .inr⟩

/-- An enabled callback does not throw, whatever the host answers, and keeps the
invariant. -/
theorem Inv.progress (h : Inv cfg c) (turn : Turn) (henabled : c.Enabled event) :
    ∃ c', c.handle cfg turn event = .ok c' ∧ Inv cfg c' := by
  rcases h henabled.1 with hlive | hfinished
  · obtain ⟨c', hok, hout⟩ := Live.handle (fun _ _ => True) hlive turn henabled.2
      (fun _ _ _ => trivial) fun _ _ _ => trivial
    refine ⟨c', hok, fun hreg => ?_⟩
    rcases hout with hgone | hfin | ⟨hl, -⟩
    · exact absurd (hgone.symm.trans hreg) Bool.false_ne_true
    · exact .inr hfin
    · exact .inl hl
  · obtain ⟨c', hok, hout, -⟩ := hfinished.handle turn henabled.2
    refine ⟨c', hok, fun hreg => .inr (hout.resolve_left fun hgone => ?_)⟩
    exact absurd (hgone.symm.trans hreg) Bool.false_ne_true

theorem Inv.step {label : Turn × Event} (h : Inv cfg c) (hstep : Step cfg c label c') :
    Inv cfg c' := by
  obtain ⟨d, hok, hinv⟩ := h.progress label.1 hstep.1
  obtain rfl := Except.ok.inj (hstep.2.symm.trans hok)
  exact hinv

theorem Inv.of_run {labels : List (Turn × Event)} (h : Inv cfg c)
    (hrun : Run (Step cfg) c labels c') : Inv cfg c' :=
  hrun.invariant (fun _ _ _ hinv hstep => hinv.step hstep) h

theorem Opened.inv (h : Opened cfg c) : Inv cfg c := fun _ => .inl h.live

theorem Reachable.inv (h : Reachable cfg c) : Inv cfg c := by
  obtain ⟨c₀, hopen, labels, hrun⟩ := h
  exact hopen.inv.of_run hrun

/-- The session holds the connection and it is not closed. -/
def Current (c : Conn) : Prop := c.registered = true ∧ c.state ≠ .closed

theorem Reachable.live (h : Reachable cfg c) (hcurrent : c.Current) : Live cfg c :=
  (h.inv hcurrent.1).resolve_right fun hfinished => hcurrent.2 hfinished.state

/-- A run of the model that can be computed, to a connection with property `p`,
all of whose steps are allowed. -/
theorem exists_restricted_run (cfg : Settings) (allowed : Conn → Turn × Event → Prop)
    [∀ c label, Decidable (allowed c label)] (c₀ : Conn) (labels : List (Turn × Event))
    (p : Conn → Bool) (h : (c₀.execute cfg allowed labels).any p = true) :
    ∃ c, Run (Restrict (Step cfg) allowed) c₀ labels c ∧ p c = true := by
  obtain ⟨c, hc, hp⟩ := (Option.any_eq_true p _).mp h
  exact ⟨c, run_of_execute cfg hc, hp⟩

theorem exists_run (cfg : Settings) (c₀ : Conn) (labels : List (Turn × Event)) (p : Conn → Bool)
    (h : (c₀.execute cfg (fun _ _ => True) labels).any p = true) :
    ∃ c, Run (Step cfg) c₀ labels c ∧ p c = true := by
  obtain ⟨c, hrun, hp⟩ := exists_restricted_run cfg (fun _ _ => True) c₀ labels p h
  exact ⟨c, hrun.unrestrict, hp⟩

theorem ok_of_toOption {outcome : Outcome Conn} (h : outcome.toOption = some c) :
    outcome = .ok c := by
  cases outcome with
  | error thrown => cases h
  | ok c₁ => rw [Option.some.inj h]

/-- The same for the connection a SYN of the VM opens. -/
theorem exists_outbound_run (cfg : Settings) (rateLimiter : SlidingWindowRateLimiter)
    (seg : VMSegment) (isn : Seq) (labels : List (Turn × Event)) (p : Conn → Bool)
    (h : (openOutbound cfg rateLimiter seg isn).toOption.any (fun c₀ =>
      (c₀.execute cfg (fun _ _ => True) labels).any p) = true) :
    ∃ c, Reachable cfg c ∧ p c = true := by
  obtain ⟨c₀, hopened, hrun⟩ := (Option.any_eq_true _ _).mp h
  obtain ⟨c, hrun, hp⟩ := exists_run cfg c₀ labels p hrun
  exact ⟨c, ⟨c₀, .outbound (ok_of_toOption hopened), labels, hrun⟩, hp⟩

/-- A connection of the relay to port 80 of the VM, its SYN sent. -/
def exampleReverse : Conn :=
  (reverseConn {} ({} : Settings).rateLimiter 0x0a000203#32 40000 80 7#32).transmit {} []
    { syn := true }

/-- The SYN-ACK that completes it, with a window of 1000. -/
def exampleSynAck : VMSegment where
  seqNum := 99#32
  ackNum := 8#32
  syn := true
  ack := true
  window := 1000#16

/-- The SYN of the VM, with a window of 1000. -/
def exampleSyn : VMSegment where
  seqNum := 99#32
  syn := true
  window := 1000#16

/-- The connection it opens, its SYN-ACK sent. -/
def exampleOutbound : Conn :=
  { outboundConn {} ({} : Settings).rateLimiter exampleSyn 7#32 with
    send := initializeRetransmission {} 7#32 7#32 1000 536 }.transmit {} []
    { syn := true, ack := true, windowSize := some 10240 }

theorem opened_exampleReverse : Opened {} exampleReverse :=
  .reverse (openReverse_transmit (by decide) (by decide) _ _ _ _)

theorem opened_exampleOutbound : Opened {} exampleOutbound :=
  have hopen : openOutbound {} ({} : Settings).rateLimiter exampleSyn 7#32 =
    .ok exampleOutbound := rfl
  .outbound hopen

end Conn

end RootlessRelay
