import RootlessRelay.Tcp.KeyReuse
import RootlessRelay.Tcp.LedgerRuns
import RootlessRelay.Tcp.RateRetries

/-!
# Sessions are made of connections

As long as no event of an endpoint strays, an event of a session is an event of
one connection, which it takes as it would alone. The other connections show
only in the limiter, which they share. So what holds of every connection that
runs alone holds of every connection of a session, and no event of a session
throws that does not open a connection.

An opening can throw, for a window, a timeout or a port that does not fit, and
it leaves its connection in the map when it does. `Refuses` names these events,
and a run that leaves them out opens connections as a connection alone is
opened. The objects that have left their map still receive events of their
endpoints; nothing they do is seen by the VM.
-/

namespace RootlessRelay

open Transition

namespace Conn

variable {cfg : Settings} {turn : Turn} {c c' : Conn} {event : Event} {label : Turn × Event}

theorem Reachable.step (h : Reachable cfg c) (hstep : Step cfg c label c') : Reachable cfg c' := by
  obtain ⟨c₀, hopen, hreaches⟩ := h
  exact ⟨c₀, hopen, hreaches.tail hstep⟩

/-- What other connections leave of the limiter is a traffic event of this one. -/
theorem Reachable.lend (h : Reachable cfg c) (hreg : c.registered = true)
    (rateLimiter : SlidingWindowRateLimiter) : Reachable cfg (c.lend rateLimiter) :=
  have hstep : Step cfg c ({}, .otherTraffic rateLimiter) (c.lend rateLimiter) :=
    ⟨⟨hreg, trivial⟩, rfl⟩
  h.step hstep

theorem canOccur_lend (rateLimiter : SlidingWindowRateLimiter) :
    (c.lend rateLimiter).CanOccur event ↔ c.CanOccur event := by
  cases event <;> exact Iff.rfl

/-- A reverse connection that is still held runs; only outbound ones wait to be
removed. -/
theorem Inv.live_of_reverse (h : Inv cfg c) (hreg : c.registered = true)
    (hdir : c.direction = .reverse) : Live cfg c :=
  (h hreg).resolve_right fun hfinished =>
    absurd (hdir.symm.trans hfinished.direction) (by decide)

theorem onSourceData_outbound (hdir : c.direction = .outbound) (data : Bytes) :
    c.onSourceData cfg turn data = (c.enqueueTCPData cfg data).trySend cfg turn := by
  unfold onSourceData
  rw [bumpActivity_outbound hdir]

theorem onSourceEnd_outbound (hdir : c.direction = .outbound) (hopen : c.state ≠ .closed) :
    c.onSourceEnd cfg turn =
      ({ c with send.sourceEnded := true, send.pendingFin := true } : Conn).trySend cfg turn := by
  have hbump : ({ c with send.sourceEnded := true } : Conn).bumpActivity =
      { c with send.sourceEnded := true } := bumpActivity_outbound hdir
  unfold onSourceEnd
  dsimp only
  rw [if_neg hopen, hbump]

theorem Opened.localClosed (h : Opened cfg c) : c.send.localClosed = false := by
  cases h with
  | outbound hopen =>
      obtain rfl := transmit_of_openOutbound hopen
      rfl
  | reverse hopen =>
      obtain rfl := transmit_of_openReverse hopen
      rfl

/-- Only the `close` of the local client sets `localClosed`. -/
theorem Live.localClosed (h : Live cfg c) (hcan : c.CanOccur event) (hother : event ≠ .localClose)
    (hok : c.handle cfg turn event = .ok c') :
    c'.registered = false ∨ Finished cfg c' ∨ c'.send.localClosed = c.send.localClosed := by
  have hpassive : ∀ {b : Conn}, Passive c b → b.send.localClosed = c.send.localClosed :=
    fun hp => congrArg SendSide.localClosed hp.send
  by_cases hdrains : Drains event
  · obtain ⟨c₁, hhandle, hsending, hprimed, -⟩ := h.acts_before turn hcan hdrains
    rw [hhandle] at hok
    obtain ⟨c₂, hsent, hd⟩ := trySend_spec turn hsending (hprimed.registered.trans h.registered)
      (hprimed.sending.trans h.stopped) fun hs => by
        rw [hprimed.segments]
        exact h.awaiting (hprimed.state.symm.trans hs)
    obtain rfl := Except.ok.inj (hok.symm.trans hsent)
    exact .inr (.inr ((congrArg Frame.localClosed hd.evolves.frame).trans
      (hprimed.localClosed hother)))
  cases event with
  | segment seg =>
      obtain ⟨c₂, hok₂, hreceived⟩ := onSegment_spec h turn seg
      obtain rfl := Except.ok.inj (hok.symm.trans hok₂)
      cases hreceived with
      | ended gone => exact gone.imp_right .inl
      | idle live moves context => exact .inr (.inr (congrArg Context.localClosed context))
      | handshake live moves start syn context =>
          exact .inr (.inr (congrArg Context.localClosed context))
      | data live moves context isOpen =>
          rcases (handleData_spec live isOpen turn seg).outcome with ⟨hover, -⟩ | ⟨-, -, hdata⟩
          · exact hover.imp_right .inl
          · exact .inr (.inr ((congrArg Context.localClosed hdata).trans
              (congrArg Context.localClosed context)))
  | endpointError =>
      cases hok
      exact .inl (abort_registered cfg turn c true)
  | sinkDrain =>
      cases hok
      exact .inr (.inr (hpassive (onTCPReceiveDrain_passive cfg c)))
  | sinkEnd =>
      cases hok
      exact .inr (.inr rfl)
  | retransmissionTimer generation =>
      cases hok
      obtain ⟨-, hover⟩ | hfired := fireRetransmissionTimer_spec turn generation
        (fun s a (_ : SendStream.Proper s a) => trivial) (fun _ => trivial) h
      · exact .inl hover.registered
      · exact .inr (.inr (congrArg Frame.localClosed hfired.frame))
  | ackTimer =>
      cases hok
      exact .inr (.inr (hpassive (fireAckTimer_passive cfg c)))
  | idleTimer =>
      cases hok
      exact .inl (abort_registered cfg turn _ true)
  | removalTimer =>
      cases hok
      exact .inl rfl
  | transportFlush =>
      cases hok
      exact .inr (.inr rfl)
  | otherTraffic rateLimiter =>
      cases hok
      exact .inr (.inr rfl)
  | _ => exact absurd trivial hdrains

end Conn

/-- The object is a connection that runs alone; a client that has closed says
so. -/
def Held.Genuine (cfg : Settings) (held : Held) : Prop :=
  held.conn.registered = true → Conn.Reachable cfg held.conn ∧
    (held.conn.direction = .reverse → held.conn.send.localClosed = true →
      held.clientClosed = true)

/-- A genuine object takes every event that can occur, whatever the limiter. -/
theorem Held.Genuine.progress {cfg : Settings} {held : Held} {event : Event}
    (h : held.Genuine cfg) (hreg : held.conn.registered = true)
    (hcan : held.conn.CanOccur event) (turn : Turn) (rateLimiter : SlidingWindowRateLimiter) :
    ∃ c, Conn.Step cfg (held.conn.lend rateLimiter) (turn, event) c := by
  have hreachable := (h hreg).1.lend hreg rateLimiter
  have henabled : (held.conn.lend rateLimiter).Enabled event :=
    ⟨hreg, (Conn.canOccur_lend rateLimiter).mpr hcan⟩
  obtain ⟨c, hok, -⟩ := hreachable.inv.progress turn henabled
  exact ⟨c, henabled, hok⟩

namespace TcpSession

variable {cfg : Settings} {turn : Turn} {s s₁ s' : TcpSession} {id : ConnId} {key : MapKey}
  {held held₁ held' : Held} {c : Conn} {f : Conn → Outcome Conn} {calls : Nat}
  {test : Conn → Bool} {occasion : SessionEvent}

/-- An object that no map holds any more, and that sends nothing more. -/
structure Left (held held' : Held) : Prop where
  gone : held.conn.registered = false
  stays : held'.conn.registered = false
  direction : held'.conn.direction = held.conn.direction
  relayIsn : held'.conn.send.relayIsn = held.conn.send.relayIsn
  sent : held'.conn.sent = held.conn.sent

/-- The event `event` of the connection `id`, with the limiter as the session
has it. -/
structure Ran (cfg : Settings) (turn : Turn) (occasion : SessionEvent) (event : Event)
    (s s' : TcpSession) (id : ConnId) (held held' : Held) : Prop where
  before : s.objects id = some held
  after : s'.objects id = some held'
  step : Conn.Step cfg (held.conn.lend s.rateLimiter) (turn, event) held'.conn
  traffic : ∀ rateLimiter, event ≠ .otherTraffic rateLimiter
  timer : ∀ generation, event = .retransmissionTimer generation → occasion = .callback id event
  rateLimiter : s'.rateLimiter = held'.conn.rateLimiter
  client : held.clientClosed = true → held'.clientClosed = true
  closes : event = .localClose → held'.clientClosed = true
  others : ∀ id', id' ≠ id → s'.objects id' = s.objects id'
  nextConn : s'.nextConn = s.nextConn

/-- What an event does to a session, seen from its connections: nothing, an
event of one, or a new one. -/
inductive Does (cfg : Settings) (turn : Turn) (occasion : SessionEvent) (s s' : TcpSession) : Prop
  | idle
      (objects : ∀ id, s'.objects id = s.objects id ∨ ∃ held held',
        s.objects id = some held ∧ s'.objects id = some held' ∧ Left held held')
      (rateLimiter : s'.rateLimiter = s.rateLimiter) (nextConn : s'.nextConn = s.nextConn)
  | opens (held : Held) (opened : Conn.Opened cfg held.conn)
      (object : s'.objects s.nextConn = some held)
      (others : ∀ id, id ≠ s.nextConn → s'.objects id = s.objects id)
      (limited : held.conn.rateLimiter = s.rateLimiter)
      (rateLimiter : s'.rateLimiter = s.rateLimiter) (nextConn : s'.nextConn = s.nextConn + 1)
  | runs {event : Event} {id : ConnId} {held held' : Held}
      (ran : Ran cfg turn occasion event s s' id held held')

theorem Does.refl (cfg : Settings) (turn : Turn) (s : TcpSession) : Does cfg turn occasion s s :=
  .idle (fun _ => .inl rfl) rfl rfl

theorem rateLimiter_put (s : TcpSession) (id : ConnId) (held : Held) (calls : Nat) (c : Conn) :
    (s.put id held calls c).rateLimiter = c.rateLimiter := by
  unfold put
  dsimp only
  split
  · unfold remove
    split <;> rfl
  · rfl

/-- A handler that amounts to an event of the connection. What precedes it may
already have changed the object, from `held` to `held₁`. -/
theorem ran_act (event : Event) (h : held.Genuine cfg) (hheld : s.objects id = some held)
    (hreg : held.conn.registered = true) (hcan : held.conn.CanOccur event)
    (htraffic : ∀ rateLimiter, event ≠ .otherTraffic rateLimiter)
    (htimer : ∀ generation, event = .retransmissionTimer generation →
      occasion = .callback id event)
    (hheld₁ : s₁.objects id = some held₁)
    (hothers : ∀ id', id' ≠ id → s₁.objects id' = s.objects id')
    (hnext : s₁.nextConn = s.nextConn)
    (hf : f (held₁.conn.lend s₁.rateLimiter) =
      (held.conn.lend s.rateLimiter).handle cfg turn event)
    (hclient : held.clientClosed = true → held₁.clientClosed = true)
    (hcloses : event = .localClose → held₁.clientClosed = true) :
    ∃ s', s₁.act id calls f = (s', none) ∧ Does cfg turn occasion s s' := by
  obtain ⟨c, hstep⟩ := h.progress hreg hcan turn s.rateLimiter
  refine ⟨s₁.put id held₁ calls c, act_eq hheld₁ (hf.trans hstep.2), ?_⟩
  refine @Does.runs _ _ _ _ _ event id held
    { held₁ with conn := c, calls := held₁.calls + calls } ?_
  constructor
  · exact hheld
  · rw [objects_put, if_pos rfl]
  · exact hstep
  · exact htraffic
  · exact htimer
  · exact rateLimiter_put _ _ _ _ _
  · exact hclient
  · exact hcloses
  · intro id' hne
    rw [objects_put, if_neg hne]
    exact hothers id' hne
  · exact (nextConn_put _ _ _ _ _).trans hnext

/-- The same where nothing precedes the handler. -/
theorem ran_own (event : Event) (h : held.Genuine cfg) (hheld : s.objects id = some held)
    (hreg : held.conn.registered = true) (hcan : held.conn.CanOccur event)
    (htraffic : ∀ rateLimiter, event ≠ .otherTraffic rateLimiter)
    (htimer : ∀ generation, event = .retransmissionTimer generation →
      occasion = .callback id event)
    (hother : event ≠ .localClose)
    (hf : f (held.conn.lend s.rateLimiter) =
      (held.conn.lend s.rateLimiter).handle cfg turn event) :
    ∃ s', s.act id calls f = (s', none) ∧ Does cfg turn occasion s s' :=
  ran_act event h hheld hreg hcan htraffic htimer hheld (fun _ _ => rfl) rfl hf
    (fun hclosed => hclosed) fun hclose => absurd hclose hother

theorem onOccupant_none (hfind : s.find key = none) : s.onOccupant key test f = (s, none) := by
  unfold onOccupant
  rw [hfind]

theorem onOccupant_refused (hfind : s.find key = some id) (hheld : s.objects id = some held)
    (htest : test held.conn = false) : s.onOccupant key test f = (s, none) := by
  unfold onOccupant
  rw [hfind]
  dsimp only
  rw [hheld, Option.any_some, htest, if_neg Bool.false_ne_true]

theorem onOccupant_found (hfind : s.find key = some id) (hheld : s.objects id = some held)
    (htest : test held.conn = true) : s.onOccupant key test f = s.act id 1 f := by
  unfold onOccupant
  rw [hfind]
  dsimp only
  rw [hheld, Option.any_some, htest, if_pos rfl]

theorem objects_note_self {f : Held → Held} (hheld : s.objects id = some held) :
    (s.note id f).objects id = some (f held) := by
  unfold note
  rw [hheld]
  dsimp only
  rw [objects_setObject, if_pos rfl]

theorem nextConn_note {f : Held → Held} : (s.note id f).nextConn = s.nextConn := by
  unfold note
  split <;> rfl

theorem rateLimiter_note {f : Held → Held} : (s.note id f).rateLimiter = s.rateLimiter := by
  unfold note
  split <;> rfl

theorem does_note {f : Held → Held} (hheld : s.objects id = some held)
    (hleft : Left held (f held)) : Does cfg turn occasion s (s.note id f) := by
  refine .idle (fun id' => ?_) rateLimiter_note nextConn_note
  by_cases hsame : id' = id
  · rw [hsame]
    exact .inr ⟨held, f held, hheld, objects_note_self hheld, hleft⟩
  · exact .inl (objects_note hsame)

/-- The key of an object that is gone finds nothing, or what the handler does
not act on. -/
theorem find_gone {event : EndpointEvent} (hsound : Sound s) (hheld : s.objects id = some held)
    (hgone : held.conn.registered = false) (hstays : ¬s.Strays (.endpoint id event)) :
    s.find held.conn.mapKey ≠ some id ∧ (s.find held.conn.mapKey = none ∨
      ∃ id' held', s.find held.conn.mapKey = some id' ∧ s.objects id' = some held' ∧ id' ≠ id ∧
        ¬ByKey held.conn.direction held'.conn event) := by
  have hother : s.find held.conn.mapKey ≠ some id := by
    intro hfind
    obtain ⟨held', hheld', hreg, -⟩ := hsound.entries _ id hfind
    obtain rfl := Option.some.inj (hheld.symm.trans hheld')
    exact absurd (hgone.symm.trans hreg) Bool.false_ne_true
  refine ⟨hother, ?_⟩
  cases hfind : s.find held.conn.mapKey with
  | none => exact .inl rfl
  | some id' =>
      obtain ⟨held', hheld', -⟩ := hsound.entries _ id' hfind
      have hne : id' ≠ id := fun hsame => hother (hsame ▸ hfind)
      exact .inr ⟨id', held', rfl, hheld', hne, fun hreaches =>
        hstays ⟨held, id', held', hheld, hfind, hne, hheld', hreaches⟩⟩

/-- An endpoint whose connection is gone can still change the object, which
nobody sees. -/
theorem onEndpoint_gone {event : EndpointEvent} (hsound : Sound s)
    (hheld : s.objects id = some held) (hgone : held.conn.registered = false)
    (hstays : ¬s.Strays (.endpoint id event)) :
    ∃ s', s.onEndpoint cfg turn id event = (s', none) ∧ Does cfg turn occasion s s' := by
  obtain ⟨hother, hfind⟩ := find_gone hsound hheld hgone hstays
  have hfree : (∀ occupant, ByKey held.conn.direction occupant event) →
      s.find held.conn.mapKey = none := by
    intro hall
    rcases hfind with hfree | ⟨id', held', -, -, -, hkept⟩
    · exact hfree
    · exact absurd (hall held'.conn) hkept
  have hown : ∀ {s₁ : TcpSession} {f : Conn → Outcome Conn},
      s₁.find held.conn.mapKey = s.find held.conn.mapKey →
      s₁.onOwn id held.conn.mapKey f = (s₁, none) := by
    intro s₁ f hsame
    unfold onOwn
    rw [hsame, if_neg hother]
  unfold onEndpoint
  rw [hheld]
  dsimp only
  cases hdir : held.conn.direction with
  | outbound =>
      unfold onSocket
      cases event with
      | data data => exact ⟨s, onOccupant_none (hfree fun _ => trivial), .refl cfg turn s⟩
      | ended =>
          refine ⟨s.note id fun held => { held with conn.send.sourceEnded := true }, ?_,
            does_note hheld ⟨hgone, hgone, rfl, rfl, rfl⟩⟩
          rcases hfind with hfree | ⟨id', held', hfound, hheld', hne, hkept⟩
          · exact onOccupant_none (find_note.trans hfree)
          · refine onOccupant_refused (find_note.trans hfound) ((objects_note hne).trans hheld') ?_
            rw [hdir] at hkept
            have hclosed : held'.conn.state = .closed := by
              by_contra hopen
              exact hkept ⟨rfl, hopen⟩
            simp [hclosed]
      | failed => exact ⟨s, onOccupant_none (hfree fun _ => trivial), .refl cfg turn s⟩
      | drained => exact ⟨s, hown rfl, .refl cfg turn s⟩
      | localClose => exact ⟨s, rfl, .refl cfg turn s⟩
      | abandoned => exact ⟨s, rfl, .refl cfg turn s⟩
  | reverse =>
      unfold onStreams
      cases event with
      | data data =>
          refine ⟨s.note id fun held => { held with conn := held.conn.enqueueTCPData cfg data }, ?_,
            does_note hheld ⟨hgone, hgone, rfl, rfl, rfl⟩⟩
          dsimp only
          rw [onOccupant_none (hfree fun _ => trivial)]
          exact onOccupant_none (find_note.trans (hfree fun _ => trivial))
      | ended =>
          exact ⟨s.note id fun held => { held with conn.send.sourceEnded := true },
            hown find_note, does_note hheld ⟨hgone, hgone, rfl, rfl, rfl⟩⟩
      | failed => exact ⟨s, rfl, .refl cfg turn s⟩
      | drained => exact ⟨s, hown rfl, .refl cfg turn s⟩
      | localClose =>
          exact ⟨s.note id fun held => { held with clientClosed := true },
            onOccupant_none (find_note.trans (hfree fun _ => trivial)),
            does_note hheld ⟨hgone, hgone, rfl, rfl, rfl⟩⟩
      | abandoned => exact ⟨s, onOccupant_none (hfree fun _ => trivial), .refl cfg turn s⟩

theorem onOwn_found (hfind : s.find key = some id) : s.onOwn id key f = s.act id 1 f := by
  unfold onOwn
  rw [if_pos hfind]

/-- An event of the socket of a connection that is held is an event of that
connection. -/
theorem onSocket_does {event : EndpointEvent} (h : held.Genuine cfg)
    (hheld : s.objects id = some held) (hreg : held.conn.registered = true)
    (hfind : s.find key = some id) (hdir : held.conn.direction = .outbound)
    (hcan : held.CanEmit event) :
    ∃ s', s.onSocket cfg turn id key event = (s', none) ∧ Does cfg turn occasion s s' := by
  have hlook : ∀ {f : Conn → Outcome Conn}, s.onOccupant key (fun _ => true) f = s.act id 1 f :=
    onOccupant_found hfind hheld rfl
  have hdir' : (held.conn.lend s.rateLimiter).direction = .outbound := hdir
  unfold onSocket
  cases event with
  | data data =>
      dsimp only
      rw [hlook]
      exact ran_own (.sourceData data) h hheld hreg hcan (fun _ => nofun) (fun _ => nofun) nofun
        (Conn.onSourceData_outbound hdir' data).symm
  | ended =>
      have hended : held.conn.send.sourceEnded = false := hcan
      have hopen : held.conn.state ≠ .closed := by
        rcases (h hreg).1.inv hreg with hlive | hfinished
        · exact hlive.sending.notClosed
        · exact absurd (hended.symm.trans hfinished.sourceEnded) Bool.false_ne_true
      have hnoted : (s.note id fun held => { held with conn.send.sourceEnded := true }).objects id =
          some { held with conn.send.sourceEnded := true } := objects_note_self hheld
      dsimp only
      rw [onOccupant_found (find_note.trans hfind) hnoted (by simp [hopen])]
      refine ran_act .sourceEnd h hheld hreg hcan (fun _ => nofun) (fun _ => nofun) hnoted
        (fun _ hne => objects_note hne) nextConn_note ?_ (fun hclosed => hclosed) nofun
      rw [rateLimiter_note]
      exact (Conn.onSourceEnd_outbound hdir' hopen).symm
  | failed =>
      dsimp only
      rw [hlook]
      exact ran_own .endpointError h hheld hreg trivial (fun _ => nofun) (fun _ => nofun) nofun rfl
  | drained =>
      dsimp only
      rw [onOwn_found hfind]
      exact ran_own .sinkDrain h hheld hreg trivial (fun _ => nofun) (fun _ => nofun) nofun rfl
  | localClose => exact ⟨s, rfl, .refl cfg turn s⟩
  | abandoned => exact ⟨s, rfl, .refl cfg turn s⟩

/-- The same for the streams of a reverse connection. -/
theorem onStreams_does {event : EndpointEvent} (h : held.Genuine cfg)
    (hheld : s.objects id = some held) (hreg : held.conn.registered = true)
    (hfind : s.find key = some id) (hdir : held.conn.direction = .reverse)
    (hcan : held.CanEmit event) :
    ∃ s', s.onStreams cfg turn id key event = (s', none) ∧ Does cfg turn occasion s s' := by
  have hlook : ∀ {f : Conn → Outcome Conn}, s.onOccupant key (fun _ => true) f = s.act id 1 f :=
    onOccupant_found hfind hheld rfl
  unfold onStreams
  cases event with
  | data data =>
      have hbump : (held.conn.lend s.rateLimiter).bumpActivity =
          { held.conn.lend s.rateLimiter with idleTimer := true } :=
        Conn.bumpActivity_reverse hdir
      have hbumped := @act_eq s id held _ (fun c => .ok c.bumpActivity) 1 hheld rfl
      rw [hbump] at hbumped
      generalize hs₁ : s.put id held 1 { held.conn.lend s.rateLimiter with idleTimer := true } = s₁
        at hbumped
      have hheld₁ : s₁.objects id = some ⟨{ held.conn.lend s.rateLimiter with idleTimer := true },
          held.calls + 1, held.clientClosed⟩ := by
        rw [← hs₁, objects_put, if_pos rfl]
      have hfind₁ : s₁.find key = some id := by
        rw [← hs₁, find_put, if_neg (by simp [hreg, Conn.lend])]
        exact hfind
      have hnoted := @objects_note_self s₁ id _
        (fun held => { held with conn := held.conn.enqueueTCPData cfg data }) hheld₁
      have hlimiter : s₁.rateLimiter = s.rateLimiter := by
        rw [← hs₁, rateLimiter_put]
        rfl
      dsimp only
      rw [hlook, hbumped]
      dsimp only
      rw [onOccupant_found (find_note.trans hfind₁) hnoted rfl]
      refine ran_act (.sourceData data) h hheld hreg hcan (fun _ => nofun) (fun _ => nofun) hnoted
        (fun id' hne => ?_) ?_ ?_ (fun hclosed => hclosed) nofun
      · rw [objects_note hne, ← hs₁, objects_put, if_neg hne]
      · rw [nextConn_note, ← hs₁, nextConn_put]
      · rw [rateLimiter_note, hlimiter]
        unfold Conn.handle Conn.onSourceData
        dsimp only
        rw [hbump]
        rfl
  | ended =>
      have hnoted : (s.note id fun held => { held with conn.send.sourceEnded := true }).objects id =
          some { held with conn.send.sourceEnded := true } := objects_note_self hheld
      dsimp only
      rw [onOwn_found (find_note.trans hfind)]
      refine ran_act .sourceEnd h hheld hreg hcan (fun _ => nofun) (fun _ => nofun) hnoted
        (fun _ hne => objects_note hne) nextConn_note ?_ (fun hclosed => hclosed) nofun
      rw [rateLimiter_note]
      rfl
  | failed => exact ⟨s, rfl, .refl cfg turn s⟩
  | drained =>
      dsimp only
      rw [onOwn_found hfind]
      exact ran_own .sinkDrain h hheld hreg trivial (fun _ => nofun) (fun _ => nofun) nofun rfl
  | localClose =>
      obtain ⟨-, hclient⟩ := hcan
      have hlocal : held.conn.send.localClosed = false := by
        by_contra hlocal
        have hclosed := (h hreg).2 hdir (by simpa using hlocal)
        exact absurd (hclient.symm.trans hclosed) Bool.false_ne_true
      have hnoted : (s.note id fun held => { held with clientClosed := true }).objects id =
          some { held with clientClosed := true } := objects_note_self hheld
      dsimp only
      rw [onOccupant_found (find_note.trans hfind) hnoted rfl]
      refine ran_act .localClose h hheld hreg ⟨hdir, hlocal⟩ (fun _ => nofun) (fun _ => nofun)
        hnoted (fun _ hne => objects_note hne) nextConn_note ?_ (fun _ => rfl) fun _ => rfl
      rw [rateLimiter_note]
      rfl
  | abandoned =>
      dsimp only
      rw [hlook]
      exact ran_own .endpointError h hheld hreg trivial (fun _ => nofun) (fun _ => nofun) nofun rfl

theorem Conn.onSegment_outbound (hdir : c.direction = .outbound) (seg : VMSegment) :
    c.onSegment cfg turn seg = c.handleTCP cfg turn seg := by
  unfold Conn.onSegment
  rw [hdir]

theorem Conn.onSegment_reverse (hdir : c.direction = .reverse) (seg : VMSegment) :
    c.onSegment cfg turn seg = c.handleReverseTCP cfg turn seg := by
  unfold Conn.onSegment
  rw [hdir]

/-- A new connection, opened and put into its map. -/
theorem add_does {b : Conn} (hf : f (b.lend s.rateLimiter) = .ok c) (hopened : Conn.Opened cfg c)
    (hlimited : c.rateLimiter = s.rateLimiter) :
    ∃ s', s.add b f = (s', none) ∧ Does cfg turn occasion s s' := by
  unfold add
  dsimp only
  generalize hs₁ : ({ (s.setObject s.nextConn ⟨b, 0, false⟩).insert s.nextConn b.mapKey with
    nextConn := s.nextConn + 1 } : TcpSession) = s₁
  have hobjects : ∀ id, s₁.objects id = if id = s.nextConn then some ⟨b, 0, false⟩
      else s.objects id := by
    intro id
    rw [← hs₁]
    change ((s.setObject s.nextConn ⟨b, 0, false⟩).insert s.nextConn b.mapKey).objects id = _
    rw [objects_insert, objects_setObject]
  have hlimiter : s₁.rateLimiter = s.rateLimiter := by
    rw [← hs₁]
    cases b.mapKey <;> rfl
  have hnew : s₁.objects s.nextConn = some ⟨b, 0, false⟩ := by rw [hobjects, if_pos rfl]
  refine ⟨_, act_eq hnew (hlimiter ▸ hf), .opens ⟨c, 0, false⟩ hopened ?_ ?_ hlimited ?_ ?_⟩
  · rw [objects_put, if_pos rfl]
  · intro id hne
    rw [objects_put, if_neg hne, hobjects, if_neg hne]
  · rw [rateLimiter_put]
    exact hlimited
  · rw [nextConn_put, ← hs₁]

/-- The event is to open a connection, and the opening throws: the settings of
its queue are refused, or the window of its SYN-ACK, or its port, is none of 16
bits. -/
def Refuses (cfg : Settings) (s : TcpSession) : SessionEvent → Prop
  | .segment _ seg =>
      seg.dstIP ≠ cfg.gatewayIP ∧
        s.find (.tcp { srcPort := seg.srcPort, dstIP := seg.dstIP, dstPort := seg.dstPort }) =
          none ∧
        (seg.syn && !seg.ack) = true ∧ ¬(cfg.RtoAccepted ∧ cfg.tcpWindowSize ≤ 0xffff)
  | .connect nextProxyPort port _ =>
      s.choosePort 1000 nextProxyPort ≠ none ∧ ¬(cfg.RtoAccepted ∧ 0 ≤ port ∧ port ≤ 0xffff)
  | _ => False

/-- A connection that cannot be opened throws, after it has been put into its
map. -/
theorem add_throws {b : Conn} (hf : ¬∃ c, f (b.lend s.rateLimiter) = .ok c) :
    (s.add b f).2 ≠ none := by
  intro hok
  unfold add at hok
  dsimp only at hok
  generalize hs₁ : ({ (s.setObject s.nextConn ⟨b, 0, false⟩).insert s.nextConn b.mapKey with
    nextConn := s.nextConn + 1 } : TcpSession) = s₁ at hok
  have hnew : s₁.objects s.nextConn = some ⟨b, 0, false⟩ := by
    rw [← hs₁]
    change ((s.setObject s.nextConn ⟨b, 0, false⟩).insert s.nextConn b.mapKey).objects _ = _
    rw [objects_insert, objects_setObject, if_pos rfl]
  have hlimiter : s₁.rateLimiter = s.rateLimiter := by
    rw [← hs₁]
    cases b.mapKey <;> rfl
  unfold act at hok
  rw [hnew] at hok
  dsimp only at hok
  rw [hlimiter] at hok
  split at hok
  · rename_i c hc
    exact hf ⟨c, hc⟩
  · cases hok

/-- The refused events do throw, for any answers of the host. -/
theorem Refuses.throws {event : SessionEvent} (h : s.Refuses cfg event) (turn : Turn) :
    (s.handle cfg turn event).2 ≠ none := by
  cases event with
  | segment isn seg =>
      obtain ⟨hgateway, hfind, hsyn, hrefused⟩ := h
      change (s.receive cfg turn isn seg).2 ≠ none
      unfold receive handleTCP
      rw [if_neg hgateway]
      dsimp only
      rw [hfind]
      dsimp only
      rw [if_pos hsyn]
      exact add_throws (mt Conn.openOutbound_returns_iff.mp hrefused)
  | connect nextProxyPort port isn =>
      obtain ⟨hchosen, hrefused⟩ := h
      obtain ⟨srcPort, hport⟩ := Option.ne_none_iff_exists'.mp hchosen
      change (s.createTCPConnection cfg nextProxyPort port isn).2 ≠ none
      unfold createTCPConnection
      rw [hport]
      exact add_throws (mt Conn.openReverse_returns_iff.mp hrefused)
  | endpoint | callback | forgetPort => exact h.elim

/-- A segment is an event of the connection it finds, opens a new one, or does
nothing. -/
theorem receive_does {isn : Seq} {seg : VMSegment} (hsound : Sound s)
    (hgenuine : ∀ id held, s.objects id = some held → held.Genuine cfg)
    (hopens : ¬s.Refuses cfg (.segment isn seg)) :
    ∃ s', s.receive cfg turn isn seg = (s', none) ∧ Does cfg turn occasion s s' := by
  unfold receive
  by_cases hgateway : seg.dstIP = cfg.gatewayIP
  · rw [if_pos hgateway]
    unfold handleReverseTCP
    split
    · rename_i id hfind
      obtain ⟨held, hheld, hreg, hkey⟩ := hsound.entries _ id hfind
      have hdir := (direction_of_mapKey hkey).1 _ rfl
      exact ran_own (.segment seg) (hgenuine id held hheld) hheld hreg trivial (fun _ => nofun)
        (fun _ => nofun) nofun
        (Conn.onSegment_reverse (c := held.conn.lend s.rateLimiter) hdir seg).symm
    · exact ⟨s, rfl, .refl cfg turn s⟩
  · rw [if_neg hgateway]
    unfold handleTCP
    dsimp only
    split
    · rename_i id hfind
      obtain ⟨held, hheld, hreg, hkey⟩ := hsound.entries _ id hfind
      have hdir := (direction_of_mapKey hkey).2 _ rfl
      exact ran_own (.segment seg) (hgenuine id held hheld) hheld hreg trivial (fun _ => nofun)
        (fun _ => nofun) nofun
        (Conn.onSegment_outbound (c := held.conn.lend s.rateLimiter) hdir seg).symm
    · rename_i hfree
      split
      · rename_i hsyn
        have hallowed : cfg.RtoAccepted ∧ cfg.tcpWindowSize ≤ 0xffff :=
          not_not.mp fun hrefused => hopens ⟨hgateway, hfree, hsyn, hrefused⟩
        have hopen := Conn.openOutbound_transmit hallowed.1 hallowed.2 s.rateLimiter seg isn
        exact add_does hopen (.outbound hopen) rfl
      · exact ⟨s, rfl, .refl cfg turn s⟩

theorem createTCPConnection_does (turn : Turn) {nextProxyPort : Port} {port : Int} {isn : Seq}
    (hopens : ¬s.Refuses cfg (.connect nextProxyPort port isn)) :
    ∃ s', s.createTCPConnection cfg nextProxyPort port isn = (s', none) ∧
      Does cfg turn occasion s s' := by
  unfold createTCPConnection
  split
  · exact ⟨s, rfl, .refl cfg turn s⟩
  · rename_i srcPort hchosen
    have hallowed : cfg.RtoAccepted ∧ 0 ≤ port ∧ port ≤ 0xffff :=
      not_not.mp fun hrefused => hopens ⟨hchosen ▸ Option.some_ne_none srcPort, hrefused⟩
    have hopen := Conn.openReverse_transmit hallowed.1 hallowed.2 s.rateLimiter s.vmIP srcPort isn
    exact add_does hopen (.reverse hopen) rfl

/-- What holds of a session in which no event of an endpoint has strayed. -/
structure Refined (cfg : Settings) (s : TcpSession) : Prop where
  sound : Sound s
  genuine : ∀ id held, s.objects id = some held → held.Genuine cfg

/-- An enabled event that does not stray throws nothing, unless it fails to open
a connection, and is one of a connection. -/
theorem Refined.does {event : SessionEvent} (h : Refined cfg s) (turn : Turn)
    (henabled : s.Enabled event) (hstays : ¬s.Strays event) (hopens : ¬s.Refuses cfg event) :
    ∃ s', s.handle cfg turn event = (s', none) ∧ Does cfg turn event s s' := by
  cases event with
  | segment isn seg => exact receive_does h.sound h.genuine hopens
  | connect nextProxyPort port isn => exact createTCPConnection_does turn hopens
  | endpoint id event =>
      obtain ⟨held, hheld, hcan⟩ := henabled
      cases hreg : held.conn.registered with
      | false => exact onEndpoint_gone h.sound hheld hreg hstays
      | true =>
          have hfind := h.sound.listed id held hheld hreg
          have hgenuine := h.genuine id held hheld
          change ∃ s', s.onEndpoint cfg turn id event = (s', none) ∧
            Does cfg turn (.endpoint id event) s s'
          unfold onEndpoint
          rw [hheld]
          dsimp only
          cases hdir : held.conn.direction with
          | outbound => exact onSocket_does hgenuine hheld hreg hfind hdir hcan
          | reverse => exact onStreams_does hgenuine hheld hreg hfind hdir hcan
  | callback id event =>
      obtain ⟨hcallback, held, hheld, hreg, hcan⟩ := henabled
      change ∃ s', s.act id 0 (fun c => c.handle cfg turn event) = (s', none) ∧
        Does cfg turn (.callback id event) s s'
      refine ran_own event (h.genuine id held hheld) hheld hreg hcan
        (fun rateLimiter htraffic => ?_) (fun _ _ => rfl) (fun hclose => ?_) rfl
      · rw [htraffic] at hcallback
        cases hcallback
      · rw [hclose] at hcallback
        cases hcallback
  | forgetPort port => exact ⟨_, rfl, .idle (fun _ => .inl rfl) rfl rfl⟩

/-- A genuine object stays genuine. -/
theorem Ran.genuine {event : Event} (h : Ran cfg turn occasion event s s' id held held')
    (hgenuine : held.Genuine cfg) : held'.Genuine cfg := by
  intro hreg'
  have hreg : held.conn.registered = true := h.step.1.1
  obtain ⟨hreachable, hclient⟩ := hgenuine hreg
  have hlent := hreachable.lend hreg s.rateLimiter
  refine ⟨hlent.step h.step, fun hdir' hlocal => ?_⟩
  by_cases hclose : event = .localClose
  · exact h.closes hclose
  have hkept : held'.conn.direction = held.conn.direction := (Conn.handle_keeps h.step.2).direction
  have hdir := hkept.symm.trans hdir'
  have hlive := hlent.inv.live_of_reverse hreg hdir
  obtain hgone | hfinished | hsame := hlive.localClosed h.step.1.2 hclose h.step.2
  · exact absurd (hgone.symm.trans hreg') Bool.false_ne_true
  · exact absurd (hdir'.symm.trans hfinished.direction) (by decide)
  · exact h.client (hclient hdir (hsame.symm.trans hlocal))

/-- So do all objects of a session, and a new one is genuine. -/
theorem Does.genuine (h : Does cfg turn occasion s s')
    (hgenuine : ∀ id held, s.objects id = some held → held.Genuine cfg) :
    ∀ id held, s'.objects id = some held → held.Genuine cfg := by
  intro id held hheld
  cases h with
  | idle objects rateLimiter nextConn =>
      obtain hsame | ⟨before, after, -, hafter, hleft⟩ := objects id
      · exact hgenuine id held (hsame.symm.trans hheld)
      · obtain rfl := Option.some.inj (hheld.symm.trans hafter)
        exact fun hreg => absurd (hleft.stays.symm.trans hreg) Bool.false_ne_true
  | opens new opened object others limited rateLimiter nextConn =>
      by_cases hsame : id = s.nextConn
      · rw [hsame] at hheld
        obtain rfl := Option.some.inj (hheld.symm.trans object)
        exact fun _ => ⟨⟨_, opened, .refl _⟩, fun _ hlocal =>
          absurd (opened.localClosed.symm.trans hlocal) Bool.false_ne_true⟩
      · exact hgenuine id held ((others id hsame).symm.trans hheld)
  | @runs event id₁ before after ran =>
      by_cases hsame : id = id₁
      · rw [hsame] at hheld
        obtain rfl := Option.some.inj (hheld.symm.trans ran.after)
        exact ran.genuine (hgenuine id₁ before ran.before)
      · exact hgenuine id held ((ran.others id hsame).symm.trans hheld)

theorem refined_start (cfg : Settings) (vmIP : IPv4) (rateLimiter : SlidingWindowRateLimiter) :
    Refined cfg (start vmIP rateLimiter) :=
  ⟨sound_start vmIP rateLimiter, fun _ held hheld => absurd hheld (Option.some_ne_none held).symm⟩

/-- The events that do not stray. -/
def Stays (s : TcpSession) (label : Turn × SessionEvent) : Prop := ¬s.Strays label.2

theorem Refined.step {label : Turn × SessionEvent} (h : Refined cfg s) (hstays : s.Stays label)
    (hstep : Step cfg s label s') : Does cfg label.1 label.2 s s' ∧ Refined cfg s' := by
  have hopens : ¬s.Refuses cfg label.2 := fun hrefused =>
    hrefused.throws label.1 (congrArg Prod.snd hstep.2)
  obtain ⟨s₂, hhandle, hdoes⟩ := h.does label.1 hstep.1 hstays hopens
  obtain rfl : s' = s₂ := congrArg Prod.fst (hstep.2.symm.trans hhandle)
  exact ⟨hdoes, h.sound.step hstep, hdoes.genuine h.genuine⟩

/-- Every run without stray events keeps the session refined. -/
theorem refined_of_run {vmIP : IPv4} {rateLimiter : SlidingWindowRateLimiter}
    {labels : List (Turn × SessionEvent)}
    (h : Run (Restrict (Step cfg) Stays) (start vmIP rateLimiter) labels s) : Refined cfg s :=
  h.invariant (fun _ _ _ hrefined hstep => (hrefined.step hstep.1 hstep.2).2)
    (refined_start cfg vmIP rateLimiter)

/-- The first part of a connection to a server, and one to a port of the VM. -/
def openedBoth : List (Turn × SessionEvent) :=
  [({}, .segment 7#32 (toServer 99#32 0#32 true false false)),
    ({}, .segment 0#32 (toServer 100#32 8#32 false true false)),
    ({}, .connect 40000 80 11#32)]

end TcpSession

end RootlessRelay
