import RootlessRelay.Tcp.Ledger
import RootlessRelay.Tcp.Runs
import RootlessRelay.Tcp.Segmentation
import RootlessRelay.Tcp.Sends

/-!
# A connection keeps a ledger

`Kept` relates a connection to the ledger of its sending side; once the
retransmission queue is closed, only what was emitted still counts. `Acts` says
that what a function does to a connection amounts to deeds that are due,
whatever ledger the connection kept before. The functions of a connection are
gone through one by one.

Deeds carry conditions, and a function meets them because of what the invariant
says of the connection at that point: a transmission stays within the allowance,
a repetition is a piece of what is outstanding, the FIN comes after the last
byte. `Due` names the deeds that can occur in a callback at all, so that a bound
on deeds becomes a bound on callbacks.
-/

namespace RootlessRelay

open SequenceSpace Transition SendStream

/-- The segment occupies sequence space; a reset never does. -/
def WireSegment.occupies (wire : WireSegment) : Bool :=
  !wire.flags.rst && !(itemsOf wire.payload wire.flags).isEmpty

/-- The sequence number and the items of the segments that occupy sequence
space. -/
def occupied (wires : List WireSegment) : List (Seq × List Item) :=
  (wires.filter WireSegment.occupies).map fun wire =>
    (wire.sequence, itemsOf wire.payload wire.flags)

theorem occupied_append (wires wires' : List WireSegment) :
    occupied (wires ++ wires') = occupied wires ++ occupied wires' := by
  simp [occupied]

theorem occupied_nil_iff {wires : List WireSegment} :
    occupied wires = [] ↔ ∀ wire ∈ wires, wire.occupies = false := by
  simp [occupied]

theorem occupied_length_le (wires : List WireSegment) : (occupied wires).length ≤ wires.length := by
  rw [occupied, List.length_map]
  exact List.length_filter_le _ _

theorem occupied_single {wire : WireSegment} (h : wire.occupies = true) :
    occupied [wire] = [(wire.sequence, itemsOf wire.payload wire.flags)] := by
  simp [occupied, h]

theorem occupies_iff (wire : WireSegment) : wire.occupies = true ↔
    wire.flags.rst = false ∧ itemsOf wire.payload wire.flags ≠ [] := by
  simp [WireSegment.occupies]

/-- Emissions at their sequence numbers, counted from the initial one. -/
def numbered (isn : Seq) (emitted : List (Nat × List Item)) : List (Seq × List Item) :=
  emitted.map fun emission => (position isn emission.1, emission.2)

theorem numbered_length (isn : Seq) (emitted : List (Nat × List Item)) :
    (numbered isn emitted).length = emitted.length := List.length_map _

theorem numbered_append (isn : Seq) (emitted emitted' : List (Nat × List Item)) :
    numbered isn (emitted ++ emitted') = numbered isn emitted ++ numbered isn emitted' :=
  List.map_append

namespace Conn

/-- The open part of the ledger that a connection keeps. -/
def standing (c : Conn) : Standing where
  stream := c.stream
  window := c.send.vmWindow
  congestion := c.send.congestionWindow
  paused := c.send.sendSourcePaused

/-- The ledger `l` is that of the connection. -/
structure Kept (c : Conn) (l : Ledger) : Prop where
  isn : l.isn = c.send.relayIsn
  enqueued : l.stream.enqueued = c.send.enqueued
  emitted : occupied c.sent = numbered c.send.relayIsn l.emitted
  rateLimiter : l.rateLimiter = c.rateLimiter
  closed : l.closed = c.send.retransmission.closed
  standing : c.send.retransmission.closed = false → l.toStanding = c.standing

/-- Everything `Kept` reads of a connection, as one value. -/
structure Account where
  isn : Seq
  emitted : List (Seq × List Item)
  rateLimiter : SlidingWindowRateLimiter
  closed : Bool
  standing : Standing

/-- The account of a connection. Two connections with one account keep the same
ledgers. -/
def account (c : Conn) : Account where
  isn := c.send.relayIsn
  emitted := occupied c.sent
  rateLimiter := c.rateLimiter
  closed := c.send.retransmission.closed
  standing := c.standing

/-- Connections with one account keep one ledger. -/
theorem Kept.congr {c c' : Conn} {l : Ledger} (h : c.Kept l) (hsame : c'.account = c.account) :
    c'.Kept l := by
  simp only [account, Account.mk.injEq] at hsame
  obtain ⟨hisn, hemitted, hlimiter, hclosed, hstanding⟩ := hsame
  have henqueued : c'.send.enqueued = c.send.enqueued :=
    congrArg (fun standing : Standing => standing.stream.enqueued) hstanding
  constructor
  · exact h.isn.trans hisn.symm
  · exact h.enqueued.trans henqueued.symm
  · rw [hemitted, hisn]
    exact h.emitted
  · exact h.rateLimiter.trans hlimiter.symm
  · exact h.closed.trans hclosed.symm
  · intro hopen
    rw [hstanding]
    exact h.standing (hclosed.symm.trans hopen)

/-- What may happen to the ledger during a callback of a connection that was
`start` when the callback began. The clock is read by the segments that have
been sent, of which `quiet` occupy no sequence space when the limiter is asked. -/
def Due (start : Conn) (turn : Turn) (quiet : Nat) (event : Event) (l : Ledger) : Deed → Prop
  | .enqueue data => event = .sourceData data ∧ l.paused = start.send.sendSourcePaused
  | .refuse now _ => start.direction = .outbound ∧ now = turn.now (quiet + l.emitted.length)
  | .transmit (some now) _ =>
      start.direction = .outbound ∧ now = turn.now (quiet + l.emitted.length)
  | .transmit none _ => start.direction = .reverse
  | .probe => ∃ generation, event = .retransmissionTimer generation
  | .acknowledge count _ => ∃ seg, event = .segment seg ∧ seg.ack = true ∧
      seg.ackNum = position l.isn (l.stream.acknowledged.length + count)
  | .advertise _ => ∃ seg, event = .segment seg
  | .lend rateLimiter => event = .otherTraffic rateLimiter
  | .finish => True
  | .again _ _ => True
  | .reduce _ => True
  | .close => True

/-- From `c` to `c'`, the ledger goes through deeds that are due. -/
def Acts (cfg : Settings) (due : Ledger → Deed → Prop) (c c' : Conn) : Prop :=
  ∀ l, c.Kept l → ∃ l', Reaches (Restrict (Ledger.Step cfg) due) l l' ∧ c'.Kept l'

variable {cfg : Settings} {start c c' c'' : Conn} {turn : Turn} {quiet : Nat} {event : Event}
  {due : Ledger → Deed → Prop}

namespace Acts

theorem of_account (hsame : c'.account = c.account) : Acts cfg due c c' :=
  fun l hkept => ⟨l, .refl l, hkept.congr hsame⟩

theorem refl (c : Conn) : Acts cfg due c c := of_account rfl

theorem trans (first : Acts cfg due c c') (second : Acts cfg due c' c'') :
    Acts cfg due c c'' := by
  intro l hkept
  obtain ⟨l', reached, hkept'⟩ := first l hkept
  obtain ⟨l'', reached', hkept''⟩ := second l' hkept'
  exact ⟨l'', reached.trans reached', hkept''⟩

/-- One deed, on an open connection. -/
theorem single (hopen : c.send.retransmission.closed = false)
    (h : ∀ l, c.Kept l → l.closed = false → l.toStanding = c.standing →
      ∃ deed l', due l deed ∧ Ledger.Step cfg l deed l' ∧ c'.Kept l') : Acts cfg due c c' := by
  intro l hkept
  obtain ⟨deed, l', hdue, hstep, hkept'⟩ :=
    h l hkept (hkept.closed.trans hopen) (hkept.standing hopen)
  exact ⟨l', ⟨[deed], .single ⟨hdue, hstep⟩⟩, hkept'⟩

/-- Segments that occupy no sequence space are in no ledger. -/
theorem emit_silent {wires : List WireSegment} (h : ∀ wire ∈ wires, wire.occupies = false) :
    Acts cfg due c (c.emit wires) := by
  refine of_account ?_
  have hsame : occupied (c.sent ++ wires) = occupied c.sent := by
    rw [occupied_append, occupied_nil_iff.mpr h, List.append_nil]
  change { c.account with emitted := occupied (c.sent ++ wires) } = c.account
  rw [hsame]
  rfl

/-- Another queue with the same stream. -/
theorem withQueue {q : RetransmissionQueue} (hq : c.send.retransmission.SameStream q) :
    Acts cfg due c (c.withQueue q) := by
  refine of_account ?_
  have hstream : (c.withQueue q).stream = c.stream := Sending.withQueue_stream hq.items
  change { c.account with
    closed := q.closed
    standing := { c.standing with stream := (c.withQueue q).stream } } = c.account
  rw [hq.closed, hstream]
  rfl

/-- The queue is closed, and nothing else that counts has changed. -/
theorem close (hclosed : c'.send.retransmission.closed = true)
    (henqueued : c'.send.enqueued = c.send.enqueued)
    (hisn : c'.send.relayIsn = c.send.relayIsn) (hsent : occupied c'.sent = occupied c.sent)
    (hlimiter : c'.rateLimiter = c.rateLimiter) : Acts cfg (Due start turn quiet event) c c' := by
  intro l hkept
  have hkept' : c'.Kept { l with closed := true } := by
    refine ⟨hkept.isn.trans hisn.symm, hkept.enqueued.trans henqueued.symm, ?_,
      hkept.rateLimiter.trans hlimiter.symm, hclosed.symm, fun hopen => ?_⟩
    · rw [hsent, hisn]
      exact hkept.emitted
    · rw [hclosed] at hopen
      cases hopen
  cases hopen : l.closed with
  | false => exact ⟨_, ⟨[.close], .single ⟨trivial, .close hopen⟩⟩, hkept'⟩
  | true =>
      refine ⟨l, .refl l, ?_⟩
      rwa [← hopen] at hkept'

end Acts

/-- Pieces of the unacknowledged stream, each sent in a segment. -/
theorem Acts.again (hopen : c.send.retransmission.closed = false)
    (hshort : c.stream.outstanding.length ≤ Ledger.flightLimit) {wires : List WireSegment}
    {pieces : List (Nat × List Item)}
    (hwires : occupied wires = numbered c.send.relayIsn pieces)
    (hpieces : ∀ place items, (place, items) ∈ pieces →
      items ≠ [] ∧ c.stream.acknowledged.length ≤ place ∧
        items <+: c.stream.history.drop place) :
    Acts cfg (Due start turn quiet event) c (c.emit wires) := by
  intro l hkept
  have hstanding := hkept.standing hopen
  have hstream : l.stream = c.stream := congrArg Standing.stream hstanding
  have hnear : c.stream.history.length ≤ c.stream.acknowledged.length + Ledger.flightLimit := by
    rw [State.history, List.length_append]
    exact Nat.add_le_add_left hshort _
  refine ⟨{ l with emitted := l.emitted ++ pieces }, ?_, ?_⟩
  · have hclosed := hkept.closed.trans hopen
    clear hkept hstanding hwires
    induction pieces generalizing l with
    | nil =>
        rw [List.append_nil]
        exact .refl l
    | cons piece rest ih =>
        obtain ⟨place, items⟩ := piece
        obtain ⟨hne, hunacked, hcut⟩ := hpieces place items List.mem_cons_self
        have hstep : Ledger.Step cfg l (.again place items)
            { l with emitted := l.emitted ++ [(place, items)] } :=
          .again hclosed hne (hstream ▸ hunacked) (hstream ▸ hcut)
            (hstream ▸ (hnear.trans (Nat.add_le_add_right hunacked _)))
        have hrest := ih (fun place items hmem => hpieces place items (List.mem_cons_of_mem _ hmem))
          { l with emitted := l.emitted ++ [(place, items)] } hstream hclosed
        simp only [List.append_assoc, List.singleton_append] at hrest
        exact Reaches.trans ⟨[.again place items], .single ⟨trivial, hstep⟩⟩ hrest
  · refine ⟨hkept.isn, hkept.enqueued, ?_, hkept.rateLimiter, hkept.closed, fun _ => hstanding⟩
    change occupied (c.sent ++ wires) = numbered c.send.relayIsn (l.emitted ++ pieces)
    rw [occupied_append, numbered_append, hkept.emitted, hwires]

/-- The chunks of a segment are cut from the stream the segment is cut from. -/
theorem Segmented.pieces {isn : Seq} {stream : List Item} {mss : Nat} {flags : Flags}
    {sequence : Seq} {isFirst : Bool} {rest : Bytes} {wires : List WireSegment} {place : Nat}
    (hmss : 0 < mss) (hrst : flags.rst = false)
    (h : Segmented (c.wire cfg) mss flags sequence isFirst rest wires)
    (hseq : sequence = position isn place)
    (hcut : itemsOf rest (flags.closing isFirst) <+: stream.drop place) :
    ∃ pieces, occupied wires = numbered isn pieces ∧ ∀ place' items, (place', items) ∈ pieces →
      items ≠ [] ∧ place ≤ place' ∧ items <+: stream.drop place' := by
  induction h generalizing place with
  | @last sequence isFirst rest _ =>
      by_cases hne : itemsOf rest (flags.closing isFirst) = []
      · refine ⟨[], occupied_nil_iff.mpr fun wire hmem => ?_, by simp⟩
        rw [List.mem_singleton.mp hmem, ← Bool.not_eq_true, occupies_iff]
        exact fun ho => ho.2 hne
      · refine ⟨[(place, itemsOf rest (flags.closing isFirst))], ?_, fun place' items hmem => ?_⟩
        · rw [occupied_single ((occupies_iff _).mpr ⟨hrst, hne⟩), hseq]
          rfl
        · obtain ⟨rfl, rfl⟩ := Prod.mk.inj (List.mem_singleton.mp hmem)
          exact ⟨hne, le_rfl, hcut⟩
  | @more sequence isFirst rest wires hmore _ ih =>
      have hlength : (rest.take mss).length = mss := List.length_take_of_le hmore.le
      have hitems : (itemsOf (rest.take mss) (flags.within isFirst)).length =
          mss + (flags.syn && isFirst).toNat := by
        rw [itemsOf_length]
        unfold sequenceLength Flags.within
        rw [hlength]
        cases flags.syn && isFirst <;> rfl
      rw [itemsOf_split flags isFirst mss] at hcut
      have hne : itemsOf (rest.take mss) (flags.within isFirst) ≠ [] := by
        intro hnil
        rw [hnil, List.length_nil] at hitems
        omega
      have hseq' : sequence + BitVec.ofNat 32 (mss + (flags.syn && isFirst).toNat) =
          position isn (place + (mss + (flags.syn && isFirst).toNat)) := by
        rw [hseq, ← position_add]
        rfl
      obtain ⟨first, hfirst⟩ := hcut
      have hrest : itemsOf (rest.drop mss) (flags.closing false) <+:
          stream.drop (place + (mss + (flags.syn && isFirst).toNat)) := by
        rw [← List.drop_drop, ← hfirst, List.append_assoc, ← hitems, List.drop_left]
        exact List.prefix_append _ _
      obtain ⟨pieces, hpieces, hcuts⟩ := ih hseq' hrest
      refine ⟨(place, itemsOf (rest.take mss) (flags.within isFirst)) :: pieces, ?_,
        fun place' items hmem => ?_⟩
      · rw [← List.singleton_append, occupied_append,
          occupied_single ((occupies_iff _).mpr ⟨hrst, hne⟩), hpieces, hseq]
        rfl
      · rcases List.mem_cons.mp hmem with hhead | htail
        · obtain ⟨rfl, rfl⟩ := Prod.mk.inj hhead
          refine ⟨hne, le_rfl, ?_⟩
          rw [← hfirst, List.append_assoc]
          exact List.prefix_append _ _
        · obtain ⟨hsome, hle, hcut⟩ := hcuts place' items htail
          exact ⟨hsome, (Nat.le_add_right _ _).trans hle, hcut⟩

/-- A tracked segment is cut from the stream, behind what has been acknowledged. -/
theorem tracked_place (htracked : c.send.retransmission.WellTracked)
    (hacked : c.send.retransmission.sndUna =
      position c.send.relayIsn c.stream.acknowledged.length) {segment : Segment}
    (hmem : segment ∈ c.send.retransmission.segments) :
    ∃ place, segment.seq = position c.send.relayIsn place ∧
      c.stream.acknowledged.length ≤ place ∧ segment.items <+: c.stream.history.drop place := by
  obtain ⟨front, back, hsplit⟩ := List.append_of_mem hmem
  obtain ⟨hseq, -, -⟩ := htracked.segment_seq hsplit
  refine ⟨c.stream.acknowledged.length + (segmentItems front).length, ?_, Nat.le_add_right _ _, ?_⟩
  · rw [hseq, hacked, position_add]
  · have hitems : c.stream.outstanding =
        segmentItems front ++ (segment.items ++ segmentItems back) := by
      change segmentItems c.send.retransmission.segments = _
      rw [hsplit, segmentItems_append, segmentItems_cons]
    rw [State.history, ← List.drop_drop, List.drop_left, hitems, List.drop_left]
    exact List.prefix_append _ _

/-- Sending a tracked segment again, in as many pieces as the MSS asks for. -/
theorem resend_acts (hopen : c.send.retransmission.closed = false)
    (htracked : c.send.retransmission.WellTracked)
    (hacked : c.send.retransmission.sndUna =
      position c.send.relayIsn c.stream.acknowledged.length)
    (hshort : c.stream.outstanding.length ≤ Ledger.flightLimit) {segment : Segment}
    (hmem : segment ∈ c.send.retransmission.segments) :
    Acts cfg (Due start turn quiet event) c (c.resend cfg segment) := by
  obtain ⟨place, hseq, hunacked, hcut⟩ := tracked_place htracked hacked hmem
  unfold resend sendTCP
  cases hrst : segment.flags.rst with
  | true =>
      obtain ⟨wires, hwires, hresets⟩ := @sendTCPLoop_reset cfg segment.flags (c.tcpMss cfg) hrst
        (segment.payload.length + 1) c segment.seq true segment.payload []
      rw [Option.getD_some, hwires]
      exact .emit_silent fun wire hmem => by rw [WireSegment.occupies, hresets wire hmem]; rfl
  | false =>
      obtain ⟨wires, hsegmented, hloop⟩ := @sendTCPLoop_segmented cfg (c.tcpMss cfg) segment.flags
        false (segment.payload.length + 1) segment.payload (tcpMss_pos cfg c) (by simp [hrst])
        (Nat.lt_succ_self _) c segment.seq true []
      have hclosing : segment.flags.closing true = segment.flags := by
        simp [Flags.closing]
      obtain ⟨pieces, hpieces, hcuts⟩ := Segmented.pieces (tcpMss_pos cfg c) hrst hsegmented hseq
        (by rw [hclosing]; exact hcut)
      have hemit : (sendTCPLoop cfg (c.tcpMss cfg) segment.flags false
          (segment.payload.length + 1) c segment.seq true segment.payload []).1 = c.emit wires := by
        rw [hloop]
        rfl
      rw [Option.getD_some, hemit]
      refine .again hopen hshort hpieces fun place' items hmem => ?_
      obtain ⟨hsome, hle, hcut'⟩ := hcuts place' items hmem
      exact ⟨hsome, hunacked.trans hle, hcut'⟩

theorem inFlight_eq (h : c.Sending cfg) {l : Ledger} (hstanding : l.toStanding = c.standing) :
    l.inFlight = c.send.retransmission.payloadBytesInFlight := by
  have hstream : l.stream = c.stream := congrArg Standing.stream hstanding
  rw [Ledger.inFlight, hstream, h.tracked.inFlight]
  rfl

/-- A loss sets the windows back, which is a deed of its own. -/
theorem onTCPCongestionLoss_acts (h : c.Sending cfg) (reason : Reason) :
    Acts cfg (Due start turn quiet event) c (c.onTCPCongestionLoss cfg reason) := by
  unfold onTCPCongestionLoss
  dsimp only
  split
  · exact .refl c
  · have hmss := tcpMss_le cfg c
    generalize hwindow : (if reason = .timeout then c.tcpMss cfg else
      max (2 * c.tcpMss cfg) (c.send.retransmission.payloadBytesInFlight / 2)) = congestion
    refine .single h.opened fun l hkept hopen hstanding => ⟨.reduce congestion,
      { l with congestion }, trivial, .reduce hopen ?_, hkept.isn, hkept.enqueued,
      hkept.emitted, hkept.rateLimiter, hkept.closed, fun _ => ?_⟩
    · rw [inFlight_eq h hstanding, ← hwindow]
      split <;> omega
    · change { l.toStanding with congestion } = _
      rw [hstanding]
      rfl

/-- The retransmission callback, with its part in congestion control. -/
theorem onRetransmit_acts (h : c.Sending cfg) (hreg : c.registered = true) {segment : Segment}
    (hmem : segment ∈ c.send.retransmission.segments) (reason : Reason) :
    Acts cfg (Due start turn quiet event) c (c.onRetransmit cfg segment reason) := by
  unfold onRetransmit
  rw [if_neg (by simp [hreg])]
  dsimp only
  split
  · have hloss := onTCPCongestionLoss_evolves h reason
    have hs := hloss.sending
    refine (onTCPCongestionLoss_acts h reason).trans
      (resend_acts hs.opened hs.tracked hs.acked hs.outstanding_le ?_)
    rw [onTCPCongestionLoss_queue]
    exact hmem
  · exact resend_acts h.opened h.tracked h.acked h.outstanding_le hmem

theorem armed_acts (c : Conn) : Acts cfg due c c.armed :=
  .withQueue (RetransmissionQueue.SameStream.armTimer (.of_segments rfl rfl rfl rfl rfl rfl))

theorem fastRetransmit_acts (h : c.Sending cfg) (hreg : c.registered = true) :
    Acts cfg (Due start turn quiet event) c (c.fastRetransmit cfg turn) := by
  obtain he | ⟨segment, hold, -, -, he⟩ := fastRetransmit_cases cfg turn c
  · rw [he]
    exact .refl c
  · rw [he]
    have hsame : c.send.retransmission.SameStream { c.send.retransmission with
        currentRtoMs := c.send.retransmission.initialRtoMs }.clearTimer :=
      .of_segments rfl rfl rfl rfl rfl rfl
    have hsent : Acts cfg (Due start turn quiet event) _ _ :=
      onRetransmit_acts (h.withQueue hsame) hreg (List.mem_of_mem_head? hold) .fast
    exact ((Acts.withQueue hsame).trans hsent).trans (armed_acts _)

theorem setPersist_acts (h : c.Sending cfg) (hreg : c.registered = true) (enabled : Bool) :
    Acts cfg (Due start turn quiet event) c (c.setPersist cfg turn enabled) := by
  have hsame := RetransmissionQueue.switchPersist_sameStream c.send.retransmission enabled
  obtain ⟨-, he⟩ | ⟨-, -, -, he⟩ | ⟨segment, -, hold, -, -, he⟩ :=
    setPersist_cases cfg turn c enabled
  · rw [he]
    exact .refl c
  · rw [he]
    exact (Acts.withQueue hsame).trans (armed_acts _)
  · rw [he]
    have hsent : Acts cfg (Due start turn quiet event) _ _ :=
      onRetransmit_acts (h.withQueue hsame) hreg (List.mem_of_mem_head? hold) .windowOpen
    exact ((Acts.withQueue hsame).trans hsent).trans (armed_acts _)

/-- The next item to be sent stands behind everything in sequence space. -/
theorem Sending.relaySeq_eq (h : c.Sending cfg) :
    c.send.relaySeq = position c.send.relayIsn c.stream.history.length := by
  rw [h.next, h.tracked.next, h.acked, position_add, State.history, List.length_append]
  rfl

/-- A segment with new items is emitted at the end of the stream. -/
theorem occupied_transmit (h : c.Sending cfg) {l : Ledger} (hkept : c.Kept l)
    (hstanding : l.toStanding = c.standing) {payload : Bytes} {flags : Flags}
    (hrst : flags.rst = false) (hitems : itemsOf payload flags ≠ []) {b : Conn}
    (hsame : (b.sent, b.send.relaySeq) = (c.sent, c.send.relaySeq)) :
    occupied (b.transmit cfg payload flags).sent =
      numbered c.send.relayIsn (l.place (itemsOf payload flags)) := by
  obtain ⟨hsent, hseq⟩ := Prod.mk.inj hsame
  have hstream : l.stream = c.stream := congrArg Standing.stream hstanding
  change occupied (b.sent ++ [b.wire cfg b.send.relaySeq payload flags]) = _
  rw [occupied_append, hsent, hkept.emitted, hseq, h.relaySeq_eq, Ledger.place, numbered_append,
    hstream, occupied_single ((occupies_iff _).mpr ⟨hrst, hitems⟩)]
  rfl

section TakeBytes

variable {left : List Bytes} {count : Nat} {flags : Flags}
  {rateLimiter : SlidingWindowRateLimiter}

theorem itemsOf_bytes {payload : Bytes} (hsyn : flags.syn = false) (hfin : flags.fin = false) :
    itemsOf payload flags = payload.map .byte := by
  simp [itemsOf, hsyn, hfin]

/-- The books after bytes have been taken, with another limiter perhaps. -/
theorem kept_takeBytes (h : c.Sending cfg) {l : Ledger} (hkept : c.Kept l)
    (hstanding : l.toStanding = c.standing) (hpos : 0 < count)
    (hle : count ≤ c.send.sendQueueBytes) (hsyn : flags.syn = false) (hfin : flags.fin = false)
    (hrst : flags.rst = false)
    (hafter : (({ c with rateLimiter } : Conn).takeBytes cfg left count flags).Sending cfg) :
    (({ c with rateLimiter } : Conn).takeBytes cfg left count flags).Kept { l with
      stream := (({ c with rateLimiter } : Conn).takeBytes cfg left count flags).stream
      rateLimiter
      emitted := l.place ((l.stream.queued.take count).map .byte)
      paused := l.resumed cfg
        (({ c with rateLimiter } : Conn).takeBytes cfg left count flags).stream } := by
  have hstream : l.stream = c.stream := congrArg Standing.stream hstanding
  have hitems := @itemsOf_bytes flags (c.send.sendQueue.flatten.take count) hsyn hfin
  have hne : itemsOf (c.send.sendQueue.flatten.take count) flags ≠ [] := by
    rw [hitems]
    intro hnil
    have hlen := congrArg List.length hnil
    rw [List.length_map, List.length_take_of_le (h.queueBytes ▸ hle), List.length_nil] at hlen
    omega
  refine ⟨hkept.isn, rfl, ?_, rfl, ?_, fun _ => ?_⟩
  · have hemitted := occupied_transmit (b := ({ c with rateLimiter } : Conn).withSendQueue left) h
      hkept hstanding hrst hne rfl
    rw [hitems] at hemitted
    rw [hstream]
    exact hemitted
  · exact (hkept.closed.trans h.opened).trans hafter.opened.symm
  · have hpaused : l.paused = c.send.sendSourcePaused := congrArg Standing.paused hstanding
    have hwindow : l.window = c.send.vmWindow := congrArg Standing.window hstanding
    have hcongestion : l.congestion = c.send.congestionWindow :=
      congrArg Standing.congestion hstanding
    have hresumed : l.resumed cfg
        (({ c with rateLimiter } : Conn).takeBytes cfg left count flags).stream =
          (c.send.sendSourcePaused &&
            !decide (c.send.sendQueueBytes - count ≤ cfg.sendQueueLowWaterBytes)) := by
      rw [Ledger.resumed, hpaused, show c.send.sendQueueBytes - count = _ from hafter.queueBytes]
      rfl
    change (⟨_, l.window, l.congestion, l.resumed cfg _⟩ : Standing) = _
    rw [hresumed, hwindow, hcongestion]
    rfl

/-- Bytes from the head of the queue, sent in one segment. -/
theorem sendQueued_acts (h : c.Sending cfg) (hstate : c.state ≠ .synSent) (hpos : 0 < count)
    (hmss : count ≤ c.tcpMss cfg) (hle : count ≤ c.send.sendQueueBytes)
    (hroom : c.send.retransmission.payloadBytesInFlight + count ≤ c.tcpSendLimit cfg)
    {asked : Option Nat} (hgrants : Ledger.Grants c.rateLimiter asked count rateLimiter)
    (hdue : ∀ l, c.Kept l → due l (.transmit asked count))
    (hok : ({ c with rateLimiter } : Conn).sendQueued cfg count = .ok c') :
    Acts cfg due c c' ∧ ∃ wire, c'.sent = c.sent ++ [wire] ∧ wire.occupies = true := by
  have hlent : ({ c with rateLimiter } : Conn).Sending cfg := { h with }
  obtain ⟨left, hflat, hne, hitems, hresult⟩ := sendQueued_eq hlent hpos hmss hle
  have hwindow : c.send.retransmission.payloadBytesInFlight + count ≤ 65535 :=
    (hroom.trans (Nat.min_le_left _ _)).trans (h.window (.inr hstate))
  obtain ⟨hsending, hstep⟩ := hlent.sendBytes { ack := true, psh := true } hpos hle hstate hwindow
    hflat hne rfl rfl
  obtain rfl := Except.ok.inj (hresult.symm.trans hok)
  refine ⟨?_, _, rfl, (occupies_iff _).mpr ⟨rfl, hitems⟩⟩
  refine .single h.opened fun l hkept hopen hstanding => ⟨.transmit asked count, _, hdue l hkept,
    ?_, kept_takeBytes h hkept hstanding hpos hle rfl rfl rfl hsending⟩
  have hstream : l.stream = c.stream := congrArg Standing.stream hstanding
  refine .transmit hopen hpos (hmss.trans (tcpMss_le cfg c)) ?_ ?_ ?_ ?_ ?_
  · rw [hstream]
    exact hle.trans_eq h.queueBytes
  · have hlimit : l.allowance cfg = c.tcpSendLimit cfg := by
      simp only [Ledger.allowance, tcpSendLimit, hstanding]
      rfl
    rw [inFlight_eq h hstanding, hlimit]
    exact hroom
  · rw [hstream]
    exact (hstep.outstanding_transmit (hle.trans_eq h.queueBytes)).ge.trans hsending.outstanding_le
  · rw [hkept.rateLimiter]
    exact hgrants
  · rw [hstream]
    exact hstep

end TakeBytes

/-- The FIN enters sequence space, behind everything else. -/
theorem sendFin_acts (h : c.Sending cfg) (hstate : c.state ≠ .synSent)
    (hpending : c.send.pendingFin = true) (hqueue : c.send.sendQueue = [])
    (hnone : .fin ∉ c.stream.outstanding) (hok : c.sendFin cfg = .ok c') :
    Acts cfg (Due start turn quiet event) c c' := by
  obtain ⟨hresult, hsending, hstep⟩ := h.sendFin hstate hpending hqueue hnone
  obtain rfl := Except.ok.inj (hresult.symm.trans hok)
  refine .single h.opened fun l hkept hopen hstanding => ⟨.finish, { l with
    stream := (c.markFin.transmit cfg [] { fin := true, ack := true }).stream
    emitted := l.place [.fin] }, trivial, .finish hopen ?_ ?_, hkept.isn, rfl, ?_,
    hkept.rateLimiter, ?_, fun _ => ?_⟩
  · have hstream : l.stream = c.stream := congrArg Standing.stream hstanding
    rw [hstream]
    exact hstep.outstanding_finish.ge.trans hsending.outstanding_le
  · have hstream : l.stream = c.stream := congrArg Standing.stream hstanding
    rw [hstream]
    exact hstep
  · have hrst : ({ fin := true, ack := true } : Flags).rst = false := rfl
    exact occupied_transmit (b := c.markFin) h hkept hstanding hrst (by simp [itemsOf]) rfl
  · exact (hkept.closed.trans h.opened).trans hsending.opened.symm
  · change ({ l.toStanding with
      stream := (c.markFin.transmit cfg [] { fin := true, ack := true }).stream } : Standing) = _
    rw [hstanding]
    rfl

theorem isTCPCongestionRecoveryActive_acts (c : Conn) :
    Acts cfg due c c.isTCPCongestionRecoveryActive.1 := by
  obtain ⟨recoveryUntil, he⟩ := isTCPCongestionRecoveryActive_eq c
  rw [he]
  exact .of_account rfl

/-- The FIN, if it is due, enters sequence space. -/
theorem maybeFin_acts (h : c.Sending cfg) (hstate : c.state ≠ .synSent)
    (hok : c.maybeFin cfg = .ok c') : Acts cfg (Due start turn quiet event) c c' := by
  rw [maybeFin_eq] at hok
  unfold maybeSendFin at hok
  split at hok
  · cases hok
    exact .refl c
  rename_i hfree
  simp only [Bool.or_eq_true, Bool.not_eq_true', not_or, Bool.not_eq_false, Bool.not_eq_true,
    decide_eq_true_eq, Nat.not_lt, Nat.le_zero, List.length_eq_zero_iff] at hfree
  obtain ⟨⟨⟨hpending, hunsent⟩, hqueue⟩, -⟩ := hfree
  have hactive : Acts cfg (Due start turn quiet event) c c.isTCPCongestionRecoveryActive.1 :=
    isTCPCongestionRecoveryActive_acts c
  have hev := isTCPCongestionRecoveryActive_evolves h
  obtain ⟨recoveryUntil, he⟩ := isTCPCongestionRecoveryActive_eq c
  generalize c.isTCPCongestionRecoveryActive = result at hok hactive hev he
  obtain ⟨c₁, active⟩ := result
  dsimp only at hok hactive hev he
  split at hok
  · cases hok
    exact hactive
  · refine hactive.trans (sendFin_acts hev.sending (hev.not_synSent hstate) ?_ ?_ ?_ hok)
    · rw [he]
      exact hpending
    · rw [he]
      exact hqueue
    · intro hmem
      have hfin := h.finTracked.mp (List.mem_append_right _ (by rw [he] at hmem; exact hmem))
      exact Bool.false_ne_true (hunsent.symm.trans hfin)

/-- Only outbound connections are limited. All but `quiet` segments so far
occupy sequence space. -/
def Limited (start : Conn) (quiet : Nat) : Bool → Conn → Prop
  | true, c => start.direction = .outbound ∧ c.sent.length = quiet + (occupied c.sent).length
  | false, _ => start.direction = .reverse

theorem Limited.of_sent {rateLimited : Bool} (h : Limited start quiet rateLimited c)
    (hsent : c'.sent = c.sent) : Limited start quiet rateLimited c' := by
  cases rateLimited with
  | true => exact ⟨h.1, hsent ▸ h.2⟩
  | false => exact h

/-- One more segment that occupies sequence space. -/
theorem Limited.snoc {rateLimited : Bool} (h : Limited start quiet rateLimited c)
    {wire : WireSegment} (hsent : c'.sent = c.sent ++ [wire]) (hoccupies : wire.occupies = true) :
    Limited start quiet rateLimited c' := by
  cases rateLimited with
  | true =>
      refine ⟨h.1, ?_⟩
      rw [hsent, occupied_append, occupied_single hoccupies, List.length_append,
        List.length_append, h.2]
      exact Nat.add_assoc _ _ _
  | false => exact h

/-- Asking the limiter, and sending what it grants. -/
theorem sendStep_acts {rateLimited goesOn : Bool} {cooperativeSegments available toSend : Nat}
    (h : c.Sending cfg) (hstate : c.state ≠ .synSent)
    (hlimited : Limited start quiet rateLimited c)
    (hpos : 0 < toSend) (hmss : toSend ≤ c.tcpMss cfg) (hle : toSend ≤ c.send.sendQueueBytes)
    (hroom : c.send.retransmission.payloadBytesInFlight + toSend ≤ c.tcpSendLimit cfg)
    (hok : c.sendStep cfg turn rateLimited cooperativeSegments available toSend =
      .ok (c', goesOn)) : Acts cfg (Due start turn quiet event) c c' ∧
      (goesOn = true → Limited start quiet rateLimited c') := by
  unfold sendStep at hok
  obtain ⟨rateLimiter, asked, hconsume, hdue, hgrants, hrefuses⟩ :
      ∃ rateLimiter asked, (c.tryConsume turn rateLimited toSend).1 = { c with rateLimiter } ∧
        (∀ l, c.Kept l → Due start turn quiet event l (.transmit asked toSend)) ∧
        ((c.tryConsume turn rateLimited toSend).2 = true →
          Ledger.Grants c.rateLimiter asked toSend rateLimiter) ∧
        ((c.tryConsume turn rateLimited toSend).2 = false → ∃ now,
          (∀ l, c.Kept l → Due start turn quiet event l (.refuse now toSend)) ∧
            c.rateLimiter.tryConsume now toSend = (rateLimiter, false)) := by
    cases rateLimited with
    | true =>
        have hnow : ∀ l, c.Kept l → turn.now c.sent.length = turn.now (quiet + l.emitted.length) :=
          fun l hkept => by rw [hlimited.2, hkept.emitted, numbered_length]
        exact ⟨_, some (turn.now c.sent.length), rfl, fun l hkept => ⟨hlimited.1, hnow l hkept⟩,
          fun hyes => Prod.ext rfl hyes, fun hno => ⟨turn.now c.sent.length,
            fun l hkept => ⟨hlimited.1, hnow l hkept⟩, Prod.ext rfl hno⟩⟩
    | false =>
      exact ⟨_, none, rfl, fun l _ => hlimited, fun _ => rfl, fun hno => Bool.noConfusion hno⟩
  generalize c.tryConsume turn rateLimited toSend = admission at hok hconsume hgrants hrefuses
  obtain ⟨c₁, admitted⟩ := admission
  obtain rfl : c₁ = _ := hconsume
  cases admitted with
  | false =>
      cases hok
      obtain ⟨now, hdue, hdenied⟩ := hrefuses rfl
      refine ⟨.single h.opened fun l hkept hopen hstanding => ⟨.refuse now toSend,
        { l with rateLimiter }, hdue l hkept, .refuse hopen ?_, hkept.isn, hkept.enqueued,
        hkept.emitted, rfl, hkept.closed, fun _ => hstanding⟩, nofun⟩
      rw [hkept.rateLimiter]
      exact hdenied
  | true =>
      simp only [Bool.not_true, Bool.false_eq_true, if_false] at hok
      have hlent : ({ c with rateLimiter } : Conn).Sending cfg := { h with }
      have hwindow : c.send.retransmission.payloadBytesInFlight + toSend ≤ c.send.vmWindow :=
        hroom.trans (Nat.min_le_left _ _)
      obtain ⟨c₂, hsend, hev, -⟩ := sendQueued_spec hlent hstate hpos hmss hle hwindow
      obtain ⟨hsent, wire, hwires, hoccupies⟩ : Acts cfg (Due start turn quiet event) c c₂ ∧
          ∃ wire, c₂.sent = c.sent ++ [wire] ∧ wire.occupies = true :=
        sendQueued_acts h hstate hpos hmss hle hroom (hgrants rfl) hdue hsend
      rw [hsend] at hok
      dsimp only at hok
      have hpaced : Acts cfg (Due start turn quiet event) c (c₂.notePacedTCPSegment turn).1 :=
        hsent.trans (.of_account rfl)
      split at hok
      · cases hok
        exact ⟨hpaced, nofun⟩
      split at hok
      · generalize hstop : (c₂.notePacedTCPSegment turn).1.stopSending.maybeFin cfg = outcome at hok
        cases outcome with
        | error thrown => cases hok
        | ok c₃ =>
            cases hok
            have hstopped : (c₂.notePacedTCPSegment turn).1.stopSending.Sending cfg :=
              { hev.sending with pacer := Pacer.noteSegment_timerExact hev.sending.pacer _ }
            have hhalted : Acts cfg (Due start turn quiet event) c
                (c₂.notePacedTCPSegment turn).1.stopSending := hpaced.trans (.of_account rfl)
            exact ⟨hhalted.trans (maybeFin_acts hstopped (hev.not_synSent hstate) hstop), nofun⟩
      split at hok
      · cases hok
        exact ⟨hpaced.trans (.of_account rfl), nofun⟩
      · cases hok
        exact ⟨hpaced, fun _ => hlimited.snoc hwires hoccupies⟩

/-- An iteration of the send loop: the FIN, a segment, a refusal, or nothing. -/
theorem drainStep_acts {rateLimited goesOn : Bool} {cooperativeSegments : Nat}
    (h : c.Sending cfg) (hreg : c.registered = true) (hstate : c.state ≠ .synSent)
    (hlimited : Limited start quiet rateLimited c)
    (hok : c.drainStep cfg turn rateLimited cooperativeSegments = .ok (c', goesOn)) :
    Acts cfg (Due start turn quiet event) c c' ∧
      (goesOn = true → Limited start quiet rateLimited c') := by
  have hstopped : Acts cfg (Due start turn quiet event) c c.stopSending := .of_account rfl
  by_cases hqueue : c.send.sendQueue = []
  · unfold drainStep at hok
    rw [if_neg (by simp [hreg]), if_pos hqueue] at hok
    generalize hstop : c.stopSending.maybeFin cfg = outcome at hok
    cases outcome with
    | error thrown => cases hok
    | ok c₁ =>
        cases hok
        have hsending : c.stopSending.Sending cfg := { h with }
        exact ⟨hstopped.trans (maybeFin_acts hsending hstate hstop), nofun⟩
  by_cases hws : turn.bufferedAmount c.sent.length > 32768
  · unfold drainStep at hok
    rw [if_neg (by simp [hreg]), if_neg hqueue, if_pos hws] at hok
    cases hok
    exact ⟨.of_account rfl, nofun⟩
  have hactive : Acts cfg (Due start turn quiet event) c c.isTCPCongestionRecoveryActive.1 :=
    isTCPCongestionRecoveryActive_acts c
  have hev := isTCPCongestionRecoveryActive_evolves h
  obtain ⟨recoveryUntil, he⟩ := isTCPCongestionRecoveryActive_eq c
  by_cases hroom : 0 < c.request cfg
  · rw [drainStep_eq cfg turn hreg hqueue (Nat.not_lt.mp hws) hroom] at hok
    have hle : c.request cfg ≤ c.available cfg :=
      (Nat.min_le_right _ _).trans (Nat.min_le_right _ _)
    have hlimit : c.send.retransmission.payloadBytesInFlight + c.request cfg ≤
        c.tcpSendLimit cfg := by
      unfold available at hle
      split at hle <;> omega
    have hmss : c.request cfg ≤ c.isTCPCongestionRecoveryActive.1.tcpMss cfg := by
      rw [he]
      exact Nat.min_le_left _ _
    have hqueued : c.request cfg ≤ c.isTCPCongestionRecoveryActive.1.send.sendQueueBytes := by
      rw [he]
      exact (Nat.min_le_right _ _).trans (Nat.min_le_left _ _)
    have hsame : c.isTCPCongestionRecoveryActive.1.sent = c.sent := by rw [he]
    obtain ⟨hsent, hgoesOn⟩ : Acts cfg (Due start turn quiet event) _ c' ∧
        (goesOn = true → Limited start quiet rateLimited c') :=
      sendStep_acts hev.sending (hev.not_synSent hstate) (hlimited.of_sent hsame) hroom hmss
        hqueued (by rw [he]; exact hlimit) hok
    exact ⟨hactive.trans hsent, hgoesOn⟩
  · unfold drainStep at hok
    rw [if_neg (by simp [hreg]), if_neg hqueue, if_neg hws] at hok
    have hzero : min (c.isTCPCongestionRecoveryActive.1.tcpMss cfg)
        (min c.isTCPCongestionRecoveryActive.1.send.sendQueueBytes
          (if c.isTCPCongestionRecoveryActive.2 = true then 0 else
            c.tcpSendLimit cfg - c.send.retransmission.payloadBytesInFlight)) = 0 := by
      rw [he, isTCPCongestionRecoveryActive_snd]
      exact Nat.eq_zero_of_not_pos hroom
    dsimp only at hok
    rw [if_pos hzero] at hok
    cases hok
    exact ⟨hactive.trans (.of_account rfl), nofun⟩

/-- The loop, by induction on the fuel. -/
theorem drainLoop_acts {rateLimited : Bool} {fuel cooperativeSegments : Nat}
    (h : c.Sending cfg) (hreg : c.registered = true) (hstate : c.state ≠ .synSent)
    (hready : c.PersistReady) (hlimited : Limited start quiet rateLimited c)
    (hok : drainLoop cfg turn rateLimited fuel cooperativeSegments c = .ok c') :
    Acts cfg (Due start turn quiet event) c c' := by
  induction fuel generalizing c cooperativeSegments with
  | zero => cases hok
  | succ fuel ih =>
      obtain ⟨⟨c₁, goesOn⟩, hstep, hspec⟩ :=
        drainStep_spec turn rateLimited cooperativeSegments h hreg hstate hready
      obtain ⟨hfirst, hlimited'⟩ : Acts cfg (Due start turn quiet event) c c₁ ∧
          (goesOn = true → Limited start quiet rateLimited c₁) :=
        drainStep_acts h hreg hstate hlimited hstep
      unfold drainLoop at hok
      rw [hstep] at hok
      cases goesOn with
      | false =>
          cases hok
          exact hfirst
      | true =>
          obtain ⟨hev, hwindow, -, -⟩ := hspec
          have hready' : c₁.PersistReady := by
            intro hw
            simp only [wantsPersist, Bool.and_eq_true, decide_eq_true_eq] at hw
            exact absurd (hev.vmWindow ▸ hw.1) hwindow
          exact hfirst.trans (ih hev.sending (hev.registered.trans hreg)
            (hev.not_synSent hstate) hready' (hlimited' rfl) hok)

/-- The connection when the loop of `drainTCPToVM` begins. -/
def drainStart (cfg : Settings) (turn : Turn) (c : Conn) : Conn :=
  ({ c with send := { c.send with sending := true } } : Conn).setPersist cfg turn
    ({ c with send := { c.send with sending := true } } : Conn).wantsPersist

/-- The loop with the change of persist mode in front of it. -/
theorem drainTCPToVM_acts {rateLimited : Bool} (h : c.Sending cfg) (hreg : c.registered = true)
    (hstate : c.state ≠ .synSent)
    (hlimited : Limited start quiet rateLimited (c.drainStart cfg turn))
    (hok : c.drainTCPToVM cfg turn rateLimited = .ok c') :
    Acts cfg (Due start turn quiet event) c c' := by
  unfold drainTCPToVM at hok
  dsimp only at hok
  have hmarked : ({ c with send := { c.send with sending := true } } : Conn).Sending cfg :=
    { h with }
  have hstart : Acts cfg (Due start turn quiet event) c
      { c with send := { c.send with sending := true } } := .of_account rfl
  have hev := setPersist_evolves turn hmarked hreg
    ({ c with send := { c.send with sending := true } } : Conn).wantsPersist
  obtain ⟨hready, -⟩ := setPersist_wanted turn hmarked hreg
  exact (hstart.trans (setPersist_acts hmarked hreg _)).trans
    (drainLoop_acts hev.sending (hev.registered.trans hreg) (hev.not_synSent hstate) hready
      hlimited hok)

/-- The send loop of an outbound connection, which asks the limiter. -/
theorem trySendToVM_acts (h : c.Sending cfg) (hstart : start.direction = .outbound)
    (hok : c.trySendToVM cfg turn = .ok c') :
    ∃ quiet, Acts cfg (Due start turn quiet event) c c' := by
  unfold trySendToVM at hok
  split at hok
  · cases hok
    exact ⟨0, .refl c⟩
  · rename_i hidle
    simp only [Bool.or_eq_true, Bool.not_eq_true', not_or, Bool.not_eq_false,
      decide_eq_true_eq] at hidle
    obtain ⟨quiet, hquiet⟩ :=
      Nat.exists_eq_add_of_le' (occupied_length_le (c.drainStart cfg turn).sent)
    have hlimited : Limited start quiet true (c.drainStart cfg turn) := ⟨hstart, hquiet⟩
    exact ⟨quiet, drainTCPToVM_acts h hidle.1.1.1 hidle.2 hlimited hok⟩

/-- The send loop of a reverse connection. -/
theorem trySendReverseToVM_acts (h : c.Sending cfg) (hstart : start.direction = .reverse)
    (hok : c.trySendReverseToVM cfg turn = .ok c') :
    Acts cfg (Due start turn quiet event) c c' := by
  unfold trySendReverseToVM at hok
  split at hok
  · cases hok
    exact .refl c
  · rename_i hidle
    simp only [Bool.or_eq_true, Bool.not_eq_true', not_or, Bool.not_eq_false] at hidle
    have hlimited : Limited start quiet false (c.drainStart cfg turn) := hstart
    exact drainTCPToVM_acts h hidle.1.1.1 (not_synSent_of_isOpen hidle.2) hlimited hok

/-- The send loop, as the closures of the connection call it. -/
theorem trySend_acts (h : c.Sending cfg) (hdir : c.direction = start.direction)
    (hok : c.trySend cfg turn = .ok c') :
    ∃ quiet, Acts cfg (Due start turn quiet event) c c' := by
  cases hcase : c.direction with
  | outbound =>
      rw [trySend_outbound hcase] at hok
      exact trySendToVM_acts h (hdir.symm.trans hcase) hok
  | reverse =>
      rw [trySend_reverse hcase] at hok
      exact ⟨0, trySendReverseToVM_acts h (hdir.symm.trans hcase) hok⟩

theorem sendTCPAck_acts (c : Conn) : Acts cfg due c (c.sendTCPAck cfg) := by
  rw [sendTCPAck_eq]
  have hcleared : Acts cfg due c c.clearDelayedTCPAck := .of_account rfl
  refine hcleared.trans (.emit_silent fun wire hmem => ?_)
  rw [List.mem_singleton.mp hmem]
  rfl

theorem scheduleTCPAck_acts (c : Conn) (segments : Nat) (immediate : Bool) :
    Acts cfg due c (c.scheduleTCPAck cfg segments immediate) := by
  unfold scheduleTCPAck
  dsimp only
  have hcounted : Acts cfg due c { c with recv := { c.recv with
      receiveAckPendingSegments := c.recv.receiveAckPendingSegments + segments } } :=
    .of_account rfl
  split
  · exact hcounted.trans (sendTCPAck_acts _)
  · exact .of_account rfl

theorem fireAckTimer_acts (c : Conn) : Acts cfg due c (c.fireAckTimer cfg) := by
  have hfired : Acts cfg due c { c with recv := { c.recv with receiveAckTimer := false } } :=
    .of_account rfl
  unfold fireAckTimer
  dsimp only
  split
  · exact hfired.trans (sendTCPAck_acts _)
  · exact hfired

theorem onTCPReceiveDrain_acts (c : Conn) : Acts cfg due c (c.onTCPReceiveDrain cfg) := by
  have hrelieved : Acts cfg due c
      { c with recv := { c.recv with receiveBackpressured := false } } := .of_account rfl
  unfold onTCPReceiveDrain
  split
  · exact .refl c
  · exact hrelieved.trans (scheduleTCPAck_acts _ 0 true)

/-- The reset both ways of aborting may send. -/
theorem reset_acts (turn : Turn) (c : Conn) (sendReset : Bool) : Acts cfg due c
    (if (sendReset && turn.wsOpen) = true then
      (c.sendTCP cfg [] { rst := true, ack := true } none true).1 else c) := by
  split
  · rw [sendTCP_control cfg (.inr rfl)]
    refine .emit_silent fun wire hmem => ?_
    rw [List.mem_singleton.mp hmem]
    rfl
  · exact .refl c

theorem abortTCPConnection_acts (turn' : Turn) (c : Conn) (sendReset : Bool) :
    Acts cfg (Due start turn quiet event) c (c.abortTCPConnection cfg turn' sendReset) := by
  unfold abortTCPConnection
  split
  · exact .refl c
  · have hclosed : Acts cfg (Due start turn quiet event) c (({ c with
        state := .closed
        registered := false
        send := { c.send with
          transportWaiting := false
          pacer := c.send.pacer.close
          retransmission := c.send.retransmission.close } } : Conn).clearDelayedTCPAck) :=
      .close (RetransmissionQueue.close_closed _) rfl rfl rfl rfl
    exact (hclosed.trans (reset_acts turn' _ sendReset)).trans (.of_account rfl)

theorem abortReverseConnection_acts (turn' : Turn) (c : Conn) (sendReset : Bool) :
    Acts cfg (Due start turn quiet event) c (c.abortReverseConnection cfg turn' sendReset) := by
  unfold abortReverseConnection
  split
  · exact .refl c
  · exact (reset_acts turn' c sendReset).trans
      (.close (RetransmissionQueue.close_closed _) rfl rfl rfl rfl)

theorem abort_acts (turn' : Turn) (c : Conn) (sendReset : Bool) :
    Acts cfg (Due start turn quiet event) c (c.abort cfg turn' sendReset) := by
  unfold abort
  split
  · exact abortTCPConnection_acts turn' c sendReset
  · exact abortReverseConnection_acts turn' c sendReset

theorem finishTCPConnection_acts (c : Conn) :
    Acts cfg (Due start turn quiet event) c c.finishTCPConnection := by
  unfold finishTCPConnection
  split
  · exact .refl c
  · exact .close (RetransmissionQueue.close_closed _) rfl rfl rfl rfl

theorem finishReverseConnection_acts (c : Conn) :
    Acts cfg (Due start turn quiet event) c c.finishReverseConnection := by
  unfold finishReverseConnection
  split
  · exact .refl c
  · exact .close (RetransmissionQueue.close_closed _) rfl rfl rfl rfl

/-- A tracked SYN stands alone in its segment. -/
theorem Sending.syn_alone (h : c.Sending cfg) {segment : Segment}
    (hmem : segment ∈ c.send.retransmission.segments) (hsyn : segment.flags.syn = true) :
    segment.payload = [] ∧ segment.flags.fin = false := by
  obtain ⟨place, -, hle, hcut⟩ := tracked_place h.tracked h.acked hmem
  have hitems : segment.items = .syn :: (segment.payload.map .byte ++
      (if segment.flags.fin then [.fin] else [])) := by
    simp [Segment.items, itemsOf, hsyn]
  obtain ⟨after, hafter⟩ := hcut
  have hat : c.stream.history[place]? = some .syn := by
    have hhead := congrArg List.head? hafter
    rw [hitems, List.head?_drop] at hhead
    exact hhead.symm
  obtain ⟨rest, hrest, hnone⟩ := h.synFirst
  -- The SYN stands at the very front, so nothing has been acknowledged.
  have hfront : place = 0 := by
    cases place with
    | zero => rfl
    | succ n =>
        rw [hrest, List.getElem?_cons_succ] at hat
        exact absurd (List.mem_of_getElem? hat) hnone
  have hacked : c.stream.acknowledged = [] :=
    List.eq_nil_of_length_eq_zero (Nat.le_zero.mp (hfront ▸ hle))
  have hstate : c.state = .synSent := by
    by_contra hs
    exact h.synAcked hs hacked
  have hlen := congrArg List.length hafter
  rw [hfront, List.drop_zero, h.handshake hstate, hitems] at hlen
  simp only [List.length_append, List.length_cons, List.length_map, List.length_nil] at hlen
  refine ⟨List.eq_nil_of_length_eq_zero (by omega), ?_⟩
  by_contra hfin
  rw [if_pos (by simpa using hfin), List.length_singleton] at hlen
  omega

/-- A probe repeats the first item of a tracked segment, or nothing. -/
theorem probeAgain_acts (h : c.Sending cfg) {segment : Segment}
    (hmem : segment ∈ c.send.retransmission.segments) :
    Acts cfg (Due start turn quiet event) c (c.sendTCP cfg (segment.payload.take 1)
      { ack := true, fin := decide (segment.payload.length = 0) && segment.flags.fin }
      (some segment.seq) false).1 := by
  have hshort : (segment.payload.take 1).length ≤ c.tcpMss cfg :=
    Nat.le_trans (List.length_take_le _ _) (tcpMss_pos cfg c)
  rw [sendTCP_short cfg hshort, sendChunk_resend, Option.getD_some]
  obtain ⟨place, hseq, hunacked, hcut⟩ := tracked_place h.tracked h.acked hmem
  generalize hflags : ({ ack := true
                         fin := decide (segment.payload.length = 0) && segment.flags.fin } :
    Flags) = flags
  by_cases hnone : itemsOf (segment.payload.take 1) flags = []
  · refine .emit_silent fun wire hwire => ?_
    rw [List.mem_singleton.mp hwire, ← Bool.not_eq_true, occupies_iff]
    exact fun ho => ho.2 hnone
  have hsyn : segment.flags.syn = false := by
    by_contra hsyn
    obtain ⟨hempty, hfin⟩ := h.syn_alone hmem (by simpa using hsyn)
    refine hnone ?_
    rw [← hflags, hempty, hfin]
    rfl
  have hprobe : itemsOf (segment.payload.take 1) flags <+: segment.items := by
    unfold Segment.items itemsOf
    rw [← hflags, hsyn]
    cases segment.payload with
    | nil => exact List.prefix_rfl
    | cons b rest => exact ⟨rest.map .byte ++ (if segment.flags.fin then [.fin] else []), by simp⟩
  have hrst : flags.rst = false := by
    rw [← hflags]
  have hpieces : occupied [c.wire cfg segment.seq (segment.payload.take 1) flags] =
      numbered c.send.relayIsn [(place, itemsOf (segment.payload.take 1) flags)] := by
    rw [occupied_single ((occupies_iff _).mpr ⟨hrst, hnone⟩)]
    simp only [numbered, List.map_cons, List.map_nil, ← hseq]
    rfl
  refine .again h.opened h.outstanding_le hpieces fun place' items hpiece => ?_
  obtain ⟨rfl, rfl⟩ := Prod.mk.inj (List.mem_singleton.mp hpiece)
  exact ⟨hnone, hunacked, hprobe.trans hcut⟩

/-- A probe is a repetition, one new byte, or a FIN. -/
theorem onPersistProbe_acts (h : c.Sending cfg) (hreg : c.registered = true)
    (hawait : c.state = .synSent → c.send.retransmission.segments ≠ [])
    (htimer : ∃ generation, event = .retransmissionTimer generation) :
    Acts cfg (Due start turn quiet event) c
      (c.onPersistProbe cfg turn c.send.retransmission.oldest).1 := by
  unfold onPersistProbe
  rw [if_neg (by simp [hreg, h.notClosed])]
  split
  · exact .refl c
  cases hold : c.send.retransmission.segments with
  | cons segment rest =>
      simp only [RetransmissionQueue.oldest, hold, List.head?_cons]
      exact probeAgain_acts h (by rw [hold]; exact List.mem_cons_self)
  | nil =>
      obtain ⟨-, hfly, hout⟩ := h.segments_nil hold
      have hstate : c.state ≠ .synSent := fun hs => hawait hs hold
      simp only [RetransmissionQueue.oldest, hold, List.head?_nil]
      by_cases hbytes : c.send.sendQueueBytes > 0
      · rw [if_pos hbytes]
        obtain ⟨left, htake, hflat, hne⟩ := takeQueuedBytes_spec (Nat.one_pos : 0 < 1)
          (by decide) (show 1 ≤ maxSafeInteger by decide) (h.queueBytes ▸ hbytes) h.chunks
        obtain ⟨hsending, hstep⟩ := h.sendBytes { ack := true } Nat.one_pos hbytes hstate
          (by omega) hflat hne rfl rfl
        have hlen : (c.send.sendQueue.flatten.take 1).length = 1 :=
          List.length_take_of_le (h.queueBytes ▸ hbytes)
        have hitems : itemsOf (c.send.sendQueue.flatten.take 1) { ack := true } ≠ [] := by
          intro hnil
          have hzero := congrArg List.length hnil
          simp only [itemsOf_length, sequenceLength, hlen, List.length_nil] at hzero
          omega
        have hsend := sendTrackedTCP_eq (c := c.withSendQueue left) cfg h.opened h.live h.next
          (by rw [hlen]; exact tcpMss_pos cfg c) hitems rfl
        rw [htake]
        dsimp only
        rw [hsend]
        refine .single h.opened fun l hkept hopen hstanding => ?_
        have hstream : l.stream = c.stream := congrArg Standing.stream hstanding
        have hkept' := @kept_takeBytes _ _ _ _ _ c.rateLimiter h _ hkept hstanding
          Nat.one_pos hbytes rfl rfl rfl hsending
        have hidle : l.stream.outstanding = [] := by
          rw [hstream]
          exact hout
        have hqueued : 0 < l.stream.queued.length := by
          rw [hstream]
          exact hbytes.trans_eq h.queueBytes
        have hmoved : SendStream.Step itemFormat l.stream (.transmit 1)
            (c.takeBytes cfg left 1 { ack := true }).stream := by
          rw [hstream]
          exact hstep
        exact ⟨.probe, _, htimer, .probe hopen hidle hqueued hmoved, hkept.isn, hkept'.enqueued,
          hkept'.emitted, hkept.rateLimiter, hkept'.closed, hkept'.standing⟩
      rw [if_neg hbytes]
      by_cases hpending : c.send.pendingFin = true
      · rw [if_pos hpending]
        have hqueue : c.send.sendQueue = [] := by
          by_contra hne
          exact hbytes (h.sendQueueBytes_pos hne)
        have hnone : Item.fin ∉ c.stream.outstanding := by simp [hout]
        obtain ⟨hok, -⟩ := h.sendFin hstate hpending hqueue hnone
        have hsent : Acts cfg (Due start turn quiet event) _ _ :=
          sendFin_acts h hstate hpending hqueue hnone hok
        rw [hok]
        exact hsent
      · rw [if_neg hpending]
        exact .refl c

theorem giveUp_acts (c : Conn) (turn' : Turn) :
    Acts cfg (Due start turn quiet event) c (c.giveUp cfg turn') := by
  have hexhausted : Acts cfg (Due start turn quiet event) c (c.withQueue
      { c.send.retransmission with exhausted := true }.clearTimer) := .of_account rfl
  exact hexhausted.trans (abort_acts turn' _ true)

/-- A probe of the timer, with what the queue makes of its result. -/
theorem probe_acts (h : c.Sending cfg) (hreg : c.registered = true)
    (hawait : c.state = .synSent → c.send.retransmission.segments ≠ [])
    (htimer : ∃ generation, event = .retransmissionTimer generation) :
    Acts cfg (Due start turn quiet event) c (c.probe cfg turn) := by
  have hcounted := RetransmissionQueue.countTimeout_sameStream c.send.retransmission
  have hprobed : Acts cfg (Due start turn quiet event) c _ := (Acts.withQueue hcounted).trans
    (onPersistProbe_acts (h.withQueue hcounted) hreg hawait htimer)
  have hold : (c.withQueue c.send.retransmission.countTimeout).send.retransmission.oldest =
      c.send.retransmission.oldest := rfl
  rw [hold] at hprobed
  have hsettled : ∀ (c₁ : Conn) {q : RetransmissionQueue},
      c₁.send.retransmission.SameStream q → Acts cfg (Due start turn quiet event) c₁
        (c₁.withQueue q.clearTimer.backOff) :=
    fun c₁ q hq => .withQueue hq.clearTimer.backOff
  unfold probe
  split
  · rename_i c₁ heq
    rw [heq] at hprobed
    exact hprobed.trans (hsettled c₁ (.of_segments rfl rfl rfl rfl rfl rfl))
  · rename_i c₁ heq
    rw [heq] at hprobed
    exact hprobed.trans (hsettled c₁ (q := { c₁.send.retransmission with
      timeoutRetransmissions := c₁.send.retransmission.timeoutRetransmissions - 1 })
      (.of_segments rfl rfl rfl rfl rfl rfl))
  · rename_i c₁ heq
    rw [heq] at hprobed
    exact hprobed.trans (giveUp_acts c₁ turn)

/-- A retransmission after a timeout. -/
theorem retransmitOldest_acts (h : c.Sending cfg) (hreg : c.registered = true)
    {segment : Segment} (hold : c.send.retransmission.oldest = some segment) :
    Acts cfg (Due start turn quiet event) c (c.retransmitOldest cfg segment) := by
  have hcounted := RetransmissionQueue.countRetransmission_sameStream c.send.retransmission
  obtain ⟨first, rest, hcons⟩ : ∃ first rest, c.send.retransmission.segments = first :: rest := by
    cases hseg : c.send.retransmission.segments with
    | nil => simp [RetransmissionQueue.oldest, hseg] at hold
    | cons first rest => exact ⟨first, rest, rfl⟩
  obtain rfl : first = segment := by simpa [RetransmissionQueue.oldest, hcons] using hold
  have hmem : { first with retransmissions := first.retransmissions + 1 } ∈
      RetransmissionQueue.countRetransmission c.send.retransmission.segments := by
    simp only [hcons, RetransmissionQueue.countRetransmission]
    exact List.mem_cons_self
  have hsent : Acts cfg (Due start turn quiet event) c _ := (Acts.withQueue hcounted).trans
    (onRetransmit_acts (h.withQueue hcounted) hreg hmem .timeout)
  exact hsent.trans (.withQueue
    (RetransmissionQueue.SameStream.backOff (.of_segments rfl rfl rfl rfl rfl rfl)))

/-- The callback of the retransmission timer. -/
theorem fireRetransmissionTimer_acts (h : Live cfg c) (generation : Nat)
    (htimer : ∃ generation, event = .retransmissionTimer generation) :
    Acts cfg (Due start turn quiet event) c (c.fireRetransmissionTimer cfg turn generation) := by
  have hs := h.sending
  by_cases hcurrent : generation = c.send.retransmission.timerGeneration
  swap
  · rw [fireRetransmissionTimer_superseded cfg turn (.inl hcurrent)]
    exact .withQueue (.of_segments rfl rfl rfl rfl rfl rfl)
  subst hcurrent
  rw [fireRetransmissionTimer_live cfg turn hs.opened hs.live]
  have hsame : c.send.retransmission.SameStream { c.send.retransmission with
      scheduled := c.send.retransmission.scheduled.erase c.send.retransmission.timerGeneration
      timer := none } := .of_segments rfl rfl rfl rfl rfl rfl
  have hstarted : (c.timerStarted c.send.retransmission.timerGeneration).Sending cfg :=
    hs.withQueue hsame
  have hreg : (c.timerStarted c.send.retransmission.timerGeneration).registered = true :=
    h.registered
  have hawait : (c.timerStarted c.send.retransmission.timerGeneration).state = .synSent →
      (c.timerStarted c.send.retransmission.timerGeneration).send.retransmission.segments ≠ [] :=
    h.awaiting
  have hfirst : Acts cfg (Due start turn quiet event) c
      (c.timerStarted c.send.retransmission.timerGeneration) := .withQueue hsame
  refine hfirst.trans ?_
  generalize c.timerStarted c.send.retransmission.timerGeneration = c₁ at hstarted hreg hawait
  unfold onTimeout
  dsimp only
  split
  · split
    · exact giveUp_acts c₁ turn
    · exact probe_acts hstarted hreg hawait htimer
  split
  · exact .refl c₁
  · rename_i segment hold
    split
    · exact giveUp_acts c₁ turn
    · exact retransmitOldest_acts hstarted hreg hold

end Conn

end RootlessRelay
