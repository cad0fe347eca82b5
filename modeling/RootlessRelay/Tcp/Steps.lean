import RootlessRelay.Tcp.Opening

/-!
# Steps of a live connection

What one callback of the event loop does to a live connection. A segment is
covered by `Received`; every other callback by `CalledBack`. Two callbacks can
put items into sequence space after the FIN: data of the endpoint that comes
after the FIN, and the probe that repeats it. They are the `Improper` ones, and
`allowed` says whether the outgoing stream admits them.

Most callbacks change a field or two and then run the send loop (`Drains`), and
those are proved together: what comes before the loop only keeps the books
(`Prepared`), and the loop does the rest. `allowed` is a parameter because some
invariants hold for every run and others, such as the place of the FIN, only
along runs without improper callbacks.
-/

namespace RootlessRelay

open SequenceSpace Transition SendStream

namespace Conn

variable {cfg : Settings} {turn : Turn} {c c' c'' : Conn} {event : Event}
  {allowed : State Item Byte → Action Byte → Prop}

/-- The callback puts something into sequence space behind the FIN. It is
decided by the connection before it. -/
def Improper (turn : Turn) (c : Conn) : Event → Prop
  | .sourceData _ => c.send.finSent = true
  | .retransmissionTimer generation => c.TimerRepeatsFin turn generation
  | _ => False

instance (turn : Turn) (c : Conn) (event : Event) : Decidable (c.Improper turn event) :=
  match event with
  | .sourceData _ => inferInstanceAs (Decidable (c.send.finSent = true))
  | .retransmissionTimer generation =>
    inferInstanceAs (Decidable (c.TimerRepeatsFin turn generation))
  | .segment _ | .sourceEnd | .localClose | .endpointError | .sinkDrain | .sinkEnd | .pacerTimer
  | .ackTimer | .idleTimer | .removalTimer | .rateRetry | .immediate | .staleResume
  | .transportFlush | .otherTraffic _ => inferInstanceAs (Decidable False)

/-- What a callback other than a segment does to a live connection. -/
structure CalledBack (allowed : State Item Byte → Action Byte → Prop) (cfg : Settings)
    (c : Conn) (event : Event) (c' : Conn) : Prop where
  outcome : c'.registered = false ∨ Live cfg c' ∧ Moves allowed c c'
  delivered : c'.recv.core.delivered = c.recv.core.delivered
  sink : c'.registered = true → event ≠ .sinkEnd → c'.recv.sink = c.recv.sink
  window : c'.send.vmWindow = c.send.vmWindow
  sent : c.send.vmWindow = 0 → ∃ wires, c'.sent = c.sent ++ wires ∧
    ((∀ wire ∈ wires, wire.payload = []) ∨
      (∃ generation, event = .retransmissionTimer generation) ∧ c.Fires wires)

theorem Moves.mono {allowed' : State Item Byte → Action Byte → Prop}
    (hallowed : ∀ s a, allowed s a → allowed' s a) (h : Moves allowed c c') :
    Moves allowed' c c' := by
  obtain ⟨es, hrun⟩ := h
  exact ⟨es, hrun.mono fun _ _ _ hs => ⟨hallowed _ _ hs.1, hs.2⟩⟩

/-- Data of the endpoint is appended to what is queued. -/
theorem Sending.enqueue (h : c.Sending cfg) {data : Bytes} (hdata : data ≠ []) :
    (c.enqueueTCPData cfg data).Sending cfg ∧
      SendStream.Step itemFormat c.stream (.enqueue data)
        (c.enqueueTCPData cfg data).stream := by
  have hstep : SendStream.Step itemFormat c.stream (.enqueue data)
      (c.enqueueTCPData cfg data).stream := by
    have hstream : (c.enqueueTCPData cfg data).stream =
        { c.stream with
          queued := c.stream.queued ++ data, enqueued := c.stream.enqueued ++ data } := by
      simp [stream, enqueueTCPData]
    rw [hstream]
    exact .enqueue c.stream data
  refine ⟨{ h with
    queueBytes := ?_
    chunks := ?_
    conserved := hstep.conserved h.conserved
    paused := ?_ }, hstep⟩
  · simp [enqueueTCPData, h.queueBytes]
  · simp only [enqueueTCPData, List.mem_append, List.mem_singleton, not_or]
    exact ⟨h.chunks, hdata.symm⟩
  · have hlow := cfg.lowWater_lt_highWater
    have hbefore := h.paused
    simp only [enqueueTCPData, Bool.or_eq_true, decide_eq_true_eq]
    rintro (hp | hp)
    · have := hbefore hp
      omega
    · omega

theorem Ready.enqueue (h : Ready cfg c) {data : Bytes} (hdata : data ≠ [])
    (hopen : c.direction = .outbound → c.send.finSent = false) :
    Ready cfg (c.enqueueTCPData cfg data) := by
  obtain ⟨hsending, hstep⟩ := h.sending.enqueue hdata
  refine ⟨h.registered, hsending, h.timer, h.stopped, fun hdir => ?_⟩
  obtain ⟨hlocal, hlast⟩ := h.outbound hdir
  have hproper : Proper c.stream (.enqueue data) := hopen hdir
  exact ⟨hlocal, hstep.finLast hproper hlast⟩

/-- The endpoint has ended, in one of the two ways it can. A FIN is due from
then on. -/
theorem Ready.endpointEnded (h : Ready cfg c) (sourceEnded localClosed : Bool)
    (hbudget : c.send.sourceEnded.toNat + c.send.localClosed.toNat + 1 ≤
      sourceEnded.toNat + localClosed.toNat)
    (hlocal : c.direction = .outbound → localClosed = false) :
    Ready cfg { c with
      send := { c.send with sourceEnded, localClosed, pendingFin := true } } := by
  have hbefore := h.sending.finBudget
  refine ⟨h.registered, { h.sending with finBudget := ?_ }, h.timer, h.stopped, fun hdir =>
    ⟨hlocal hdir, (h.outbound hdir).2⟩⟩
  change c.stream.history.count .fin + 1 ≤ sourceEnded.toNat + localClosed.toNat
  omega

/-- `bumpActivity` restarts a timer that no sending function looks at. -/
theorem bumpActivity_eq (c : Conn) : ∃ idleTimer, c.bumpActivity = { c with idleTimer } := by
  unfold bumpActivity
  split
  · exact ⟨c.idleTimer, rfl⟩
  · exact ⟨true, rfl⟩

/-- A callback that changes the sending side a little and then runs the send
loop. -/
theorem Live.calledBack_trySend (h : Live cfg c) (turn : Turn) (event : Event) {c₁ : Conn}
    (hready : Ready cfg c₁) (hallowed : ∀ s a, Proper s a → allowed s a)
    (hmoves : Moves allowed c c₁) (hrecv : c₁.recv = c.recv) (hstate : c₁.state = c.state)
    (hsegments : c₁.send.retransmission.segments = c.send.retransmission.segments)
    (hwindow : c₁.send.vmWindow = c.send.vmWindow) (hsent : c₁.sent = c.sent) :
    ∃ c', c₁.trySend cfg turn = .ok c' ∧ CalledBack allowed cfg c event c' := by
  obtain ⟨c', hok, hlive, hev, hquiet⟩ := hready.trySend turn fun hs => by
    rw [hsegments]
    exact h.awaiting (hstate.symm.trans hs)
  have hsame : c'.recv = c.recv := hev.recv.trans hrecv
  refine ⟨c', hok, .inr ⟨hlive, hmoves.trans (Moves.mono hallowed hev.moves)⟩, by rw [hsame],
    fun _ _ => by rw [hsame], hev.vmWindow.trans hwindow, fun hzero => ⟨[], ?_, .inl (by simp)⟩⟩
  rw [hquiet (hwindow.trans hzero), hsent, List.append_nil]

/-- A callback that only moves the receiving side, such as a delayed
acknowledgement. -/
theorem Live.calledBack_passive (h : Live cfg c) (event : Event) (hp : Passive c c')
    (hdelivered : c'.recv.core.delivered = c.recv.core.delivered)
    (hsink : event ≠ .sinkEnd → c'.recv.sink = c.recv.sink) :
    CalledBack allowed cfg c event c' := by
  refine ⟨.inr ⟨h.passive hp, .of_stream (by rw [stream, stream, hp.send])⟩, hdelivered,
    fun _ => hsink, by rw [hp.send], fun _ => ?_⟩
  obtain ⟨wires, hsent, hsilent⟩ := hp.silent
  exact ⟨wires, hsent, .inl hsilent⟩

/-- A callback that gives the connection up: the session holds it no longer. -/
theorem GivenUp.calledBack (h : GivenUp c c') (event : Event) :
    CalledBack allowed cfg c event c' := by
  refine ⟨.inl h.registered, h.delivered, fun hreg => ?_, h.window, fun _ => ?_⟩
  · rw [h.registered] at hreg
    cases hreg
  · obtain ⟨wires, hsent, hsilent⟩ := h.sent
    exact ⟨wires, hsent, .inl hsilent⟩

/-- Outbound connections are never improper: their endpoint ends before the FIN. -/
theorem Live.proper_of_outbound (h : Live cfg c) (turn : Turn) (hdir : c.direction = .outbound)
    (hcan : c.CanOccur event) : ¬c.Improper turn event := by
  cases event with
  | sourceData data =>
      intro hfin
      have hended := (h.toReady.nothing_left hdir hfin).2.2
      rw [hcan.2] at hended
      cases hended
  | retransmissionTimer generation =>
      intro hrepeats
      obtain ⟨-, -, -, -, -, -, hpending, hfin⟩ := hrepeats
      rw [(h.toReady.nothing_left hdir hfin).2.1] at hpending
      cases hpending
  | _ => exact id

/-- What a timer leaves is live, once the timer of the queue is right again. -/
theorem Fired.live (h : Live cfg c) (hf : Fired allowed cfg c c')
    (htimer : c'.send.retransmission.TimerExact)
    (hproper : c.direction = .outbound → Moves Proper c c') : Live cfg c' := by
  have hframe := hf.frame
  simp only [Conn.frame, Frame.mk.injEq] at hframe
  obtain ⟨hdir, -, hreg, -, -, -, -, -, -, hlocal, -⟩ := hframe
  refine ⟨⟨hreg.trans h.registered, hf.sending, htimer, hf.stopped.trans h.stopped, ?_⟩, ?_, ?_⟩
  · intro hd
    obtain ⟨hl, hlast⟩ := h.outbound (hdir.symm.trans hd)
    exact ⟨hlocal.trans hl, finLast_of_reaches (hproper (hdir.symm.trans hd)) hlast⟩
  · by_cases hseg : c.send.retransmission.segments = []
    · cases hpersist : c.send.retransmission.persist with
      | true => exact fun _ => .inr (.inl (hf.persist.trans hpersist))
      | false =>
          intro hneeds
          by_cases hseg' : c'.send.retransmission.segments = []
          · exact wakes_congr h.wakes (hf.wake hseg hpersist) (iff_of_true hseg' hseg) hneeds
          · exact .inl hseg'
    · exact fun _ => .inl (hf.segments hseg)
  · intro hs
    refine hf.segments (h.awaiting ?_)
    rcases hf.state with he | ⟨-, he⟩
    · exact he.symm.trans hs
    · rw [he] at hs
      cases hs

/-- The retransmission timer as a callback: it may end the connection, and else
it leaves it live. -/
theorem Live.calledBack_timer (h : Live cfg c) (turn : Turn) (generation : Nat)
    (hallowed : ∀ s a, Proper s a → allowed s a)
    (hadmits : c.Improper turn (.retransmissionTimer generation) → ∀ s a, allowed s a)
    (hcan : c.CanOccur (.retransmissionTimer generation)) :
    CalledBack allowed cfg c (.retransmissionTimer generation)
      (c.fireRetransmissionTimer cfg turn generation) := by
  obtain ⟨-, hover⟩ | hfired := fireRetransmissionTimer_spec turn generation hallowed
    (fun hrepeats => hadmits hrepeats _ _) h
  · exact hover.calledBack _
  · have htimer := fireRetransmissionTimer_timerExact cfg turn generation h.timer
    have hframe := hfired.frame
    simp only [Conn.frame, Frame.mk.injEq] at hframe
    obtain ⟨-, -, hreg, hrecv, -, hwindow, -⟩ := hframe
    have hlive := hfired.live h htimer fun hdir => by
      obtain ⟨-, hover⟩ | hf := fireRetransmissionTimer_spec turn generation
        (fun _ _ (hp : Proper _ _) => hp)
        (fun hrepeats => absurd hrepeats (h.proper_of_outbound turn hdir hcan)) h
      · rw [hover.registered] at hreg
        exact absurd (hreg.trans h.registered) Bool.false_ne_true
      · exact hf.moves
    obtain ⟨wires, hsent, hfires⟩ := hfired.sent
    exact ⟨.inr ⟨hlive, hfired.moves⟩, by rw [hrecv], fun _ _ => by rw [hrecv], hwindow,
      fun _ => ⟨wires, hsent, .inr ⟨⟨generation, rfl⟩, hfires⟩⟩⟩

/-- The callback ends in the send loop. -/
def Drains : Event → Prop
  | .sourceData _ | .sourceEnd | .localClose | .pacerTimer | .rateRetry | .immediate |
    .staleResume => True
  | _ => False

/-- The connection as such a callback hands it to the send loop. -/
def handed (cfg : Settings) (c : Conn) : Event → Conn
  | .sourceData data => c.bumpActivity.enqueueTCPData cfg data
  | .sourceEnd =>
    let c := ({ c with send := { c.send with sourceEnded := true } } : Conn).bumpActivity
    { c with send := { c.send with pendingFin := true } }
  | .localClose => { c with send := { c.send with localClosed := true, pendingFin := true } }
  | .pacerTimer => { c with send := { c.send with pacer := c.send.pacer.fireTimer } }
  | .rateRetry => { c with send := { c.send with rateRetries := c.send.rateRetries - 1 } }
  | .immediate => { c with send := { c.send with immediates := c.send.immediates - 1 } }
  | _ => c

/-- Before the send loop a callback only keeps the books of the sending side. -/
structure Prepared (c c₁ : Conn) : Prop where
  recv : c₁.recv = c.recv
  state : c₁.state = c.state
  sent : c₁.sent = c.sent
  finSent : c₁.send.finSent = c.send.finSent
  vmWindow : c₁.send.vmWindow = c.send.vmWindow
  retransmission : c₁.send.retransmission = c.send.retransmission

/-- What comes before the send loop leaves the connection ready for it. -/
theorem Live.hands (h : Live cfg c) (turn : Turn) (hcan : c.CanOccur event)
    (hallowed : ∀ s a, Proper s a → allowed s a)
    (hadmits : c.Improper turn event → ∀ s a, allowed s a) (hdrains : Drains event) :
    c.handle cfg turn event = (c.handed cfg event).trySend cfg turn ∧
      Ready cfg (c.handed cfg event) ∧ Prepared c (c.handed cfg event) ∧
      Moves allowed c (c.handed cfg event) := by
  have hr := h.toReady
  have hsame : ∀ {c₁ : Conn}, c₁.stream = c.stream → Moves allowed c c₁ := Moves.of_stream
  cases event with
  | sourceData data =>
      obtain ⟨idleTimer, hbump⟩ := bumpActivity_eq c
      have hbumped : Ready cfg { c with idleTimer } := (h.withIdleTimer idleTimer).toReady
      have hready := hbumped.enqueue hcan.1 fun hdir => by
        simpa [Improper] using h.proper_of_outbound turn hdir hcan
      have hallow : allowed c.stream (.enqueue data) := by
        cases hfin : c.send.finSent with
        | false => exact hallowed _ _ hfin
        | true => exact hadmits hfin _ _
      refine ⟨rfl, ?_⟩
      unfold handed
      rw [hbump]
      exact ⟨hready, ⟨rfl, rfl, rfl, rfl, rfl, rfl⟩,
        ⟨_, .single ⟨hallow, (h.sending.enqueue hcan.1).2⟩⟩⟩
  | sourceEnd =>
      have hended : c.send.sourceEnded = false := hcan
      obtain ⟨idleTimer, hbump⟩ :=
        bumpActivity_eq { c with send := { c.send with sourceEnded := true } }
      have hready := (h.withIdleTimer idleTimer).toReady.endpointEnded true c.send.localClosed
        (by simp [hended, Nat.add_comm]) fun hdir => (h.outbound hdir).1
      unfold Conn.handle onSourceEnd handed
      dsimp only
      rw [if_neg h.sending.notClosed, hbump]
      exact ⟨rfl, hready, ⟨rfl, rfl, rfl, rfl, rfl, rfl⟩, hsame rfl⟩
  | localClose =>
      obtain ⟨hdir, hclosed⟩ : c.direction = .reverse ∧ c.send.localClosed = false := hcan
      have hready := hr.endpointEnded c.send.sourceEnded true (by simp [hclosed]) fun hd => by
        rw [hdir] at hd
        cases hd
      exact ⟨rfl, hready, ⟨rfl, rfl, rfl, rfl, rfl, rfl⟩, hsame rfl⟩
  | pacerTimer =>
      have hready : Ready cfg { c with send := { c.send with pacer := c.send.pacer.fireTimer } } :=
        hr.of_eq_send { h.sending with pacer := Pacer.fireTimer_timerExact _ } rfl rfl h.timer
          h.stopped
      exact ⟨rfl, hready, ⟨rfl, rfl, rfl, rfl, rfl, rfl⟩, hsame rfl⟩
  | rateRetry =>
      have hready : Ready cfg
          { c with send := { c.send with rateRetries := c.send.rateRetries - 1 } } :=
        hr.of_eq_send { h.sending with } rfl rfl h.timer h.stopped
      exact ⟨rfl, hready, ⟨rfl, rfl, rfl, rfl, rfl, rfl⟩, hsame rfl⟩
  | immediate =>
      have hready : Ready cfg
          { c with send := { c.send with immediates := c.send.immediates - 1 } } :=
        hr.of_eq_send { h.sending with } rfl rfl h.timer h.stopped
      exact ⟨rfl, hready, ⟨rfl, rfl, rfl, rfl, rfl, rfl⟩, hsame rfl⟩
  | staleResume => exact ⟨rfl, hr, ⟨rfl, rfl, rfl, rfl, rfl, rfl⟩, .refl _⟩
  | _ => exact absurd hdrains id

theorem Live.drains (h : Live cfg c) (turn : Turn) (hcan : c.CanOccur event)
    (hallowed : ∀ s a, Proper s a → allowed s a)
    (hadmits : c.Improper turn event → ∀ s a, allowed s a) (hdrains : Drains event) :
    ∃ c₁, c.handle cfg turn event = c₁.trySend cfg turn ∧ Ready cfg c₁ ∧ Prepared c c₁ ∧
      Moves allowed c c₁ :=
  ⟨_, h.hands turn hcan hallowed hadmits hdrains⟩

/-- Every callback but a segment, on a live connection. None of them throws. -/
theorem Live.calledBack (allowed : State Item Byte → Action Byte → Prop) (h : Live cfg c)
    (turn : Turn) (hcan : c.CanOccur event)
    (hallowed : ∀ s a, Proper s a → allowed s a)
    (hadmits : c.Improper turn event → ∀ s a, allowed s a)
    (hother : ∀ seg, event ≠ .segment seg) :
    ∃ c', c.handle cfg turn event = .ok c' ∧ CalledBack allowed cfg c event c' := by
  have hr := h.toReady
  have hsame : ∀ {c₁ : Conn}, c₁.stream = c.stream → Moves allowed c c₁ := Moves.of_stream
  by_cases hdrains : Drains event
  · obtain ⟨c₁, hhandle, hready, hprepared, hmoves⟩ :=
      h.drains turn hcan hallowed hadmits hdrains
    rw [hhandle]
    exact h.calledBack_trySend turn event hready hallowed hmoves hprepared.recv hprepared.state
      (congrArg RetransmissionQueue.segments hprepared.retransmission) hprepared.vmWindow
      hprepared.sent
  cases event with
  | segment seg => exact absurd rfl (hother seg)
  | endpointError => exact ⟨_, rfl, (abort_givenUp cfg turn c true).calledBack _⟩
  | sinkDrain =>
      obtain ⟨hdelivered, hsink⟩ := onTCPReceiveDrain_delivered cfg c
      exact ⟨_, rfl, h.calledBack_passive _ (onTCPReceiveDrain_passive cfg c) hdelivered
        fun _ => hsink⟩
  | sinkEnd =>
      exact ⟨_, rfl, h.calledBack_passive _ (.withRecv c _) rfl fun hne => absurd rfl hne⟩
  | retransmissionTimer generation =>
      exact ⟨_, rfl, h.calledBack_timer turn generation hallowed hadmits hcan⟩
  | ackTimer =>
      have hcore := fireAckTimer_core cfg c
      exact ⟨_, rfl, h.calledBack_passive _ (fireAckTimer_passive cfg c)
        (congrArg ReceiveCore.delivered hcore) fun _ => congrArg ReceiveCore.sink hcore⟩
  | idleTimer =>
      have hover := abort_givenUp cfg turn { c with idleTimer := false } true
      have hover' : GivenUp c (({ c with idleTimer := false } : Conn).abort cfg turn true) :=
        ⟨hover.registered, hover.delivered, hover.window, hover.sent⟩
      exact ⟨_, rfl, hover'.calledBack _⟩
  | removalTimer =>
      exact ⟨_, rfl, .inl rfl, rfl, fun _ _ => rfl, rfl, fun _ => ⟨[], by simp, .inl (by simp)⟩⟩
  | transportFlush =>
      refine ⟨_, rfl, .inr ⟨⟨hr.of_eq_send { h.sending with } rfl rfl h.timer h.stopped, ?_,
        h.awaiting⟩, hsame rfl⟩, rfl, fun _ _ => rfl, rfl,
        fun _ => ⟨[], (List.append_nil _).symm, .inl (by simp)⟩⟩
      exact fun _ => .inr (.inr (.inr (.inr (.inl (Nat.succ_pos _)))))
  | otherTraffic rateLimiter =>
      exact ⟨_, rfl, .inr ⟨⟨hr.of_eq_send { h.sending with } rfl rfl h.timer h.stopped, h.wakes,
        h.awaiting⟩, hsame rfl⟩, rfl, fun _ _ => rfl, rfl,
        fun _ => ⟨[], (List.append_nil _).symm, .inl (by simp)⟩⟩
  | _ => exact absurd trivial hdrains

end Conn

end RootlessRelay
