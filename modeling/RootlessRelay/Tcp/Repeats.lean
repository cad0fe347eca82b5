import RootlessRelay.Tcp.Recovery
import RootlessRelay.Tcp.Segmentation

/-!
# What is sent again

A tracked segment that is sent again may be cut in another way than the first time: the
MSS the VM announced decides, and two connections may have been told different ones. So
what a segment carries is compared item by item, each with its sequence number. A
retransmission carries the items of its segment under the numbers they have had from the
start.

The send loop, on the other hand, only gives numbers to new items. `Adds` says so: the
retransmission queue grows at its end, and no number below `sndNxt` is sent. The one
exception is the loop that leaves persist mode and repeats the oldest segment. A
connection outside persist mode does not get there: it enters persist mode at a closed
window only, and stays there as long as the window is closed and something outstanding.
-/

namespace RootlessRelay

open SequenceSpace

/-- Consecutive items, each with its sequence number, counted up from the first. -/
def spread (sequence : Seq) : List Item → List (Seq × Item)
  | [] => []
  | item :: rest => (sequence, item) :: spread (position sequence 1) rest

theorem spread_append (sequence : Seq) (items items' : List Item) :
    spread sequence (items ++ items') =
      spread sequence items ++ spread (position sequence items.length) items' := by
  induction items generalizing sequence with
  | nil => rw [List.nil_append, List.length_nil, position_zero, spread, List.nil_append]
  | cons item rest ih =>
      rw [List.cons_append, spread, spread, ih, position_add, List.length_cons, Nat.add_comm 1,
        List.cons_append]

/-- The numbers count up from the first one. -/
theorem number_of_spread {sequence : Seq} {items : List Item} {entry : Seq × Item}
    (h : entry ∈ spread sequence items) : ∃ k < items.length, entry.1 = position sequence k := by
  induction items generalizing sequence with
  | nil => cases h
  | cons item rest ih =>
      rcases List.mem_cons.mp h with rfl | hrest
      · exact ⟨0, Nat.zero_lt_succ _, (position_zero sequence).symm⟩
      · obtain ⟨k, hk, hentry⟩ := ih hrest
        exact ⟨1 + k, by rw [List.length_cons]; omega, by rw [hentry, position_add]⟩

/-- The items of a segment under their sequence numbers. A reset occupies none. -/
def WireSegment.placed (wire : WireSegment) : List (Seq × Item) :=
  if wire.flags.rst then [] else spread wire.sequence (itemsOf wire.payload wire.flags)

/-- The items of several segments, one segment behind another. -/
def placed (wires : List WireSegment) : List (Seq × Item) := wires.flatMap WireSegment.placed

theorem placed_append (wires wires' : List WireSegment) :
    placed (wires ++ wires') = placed wires ++ placed wires' := List.flatMap_append

theorem placed_singleton (wire : WireSegment) : placed [wire] = wire.placed :=
  List.flatMap_singleton _ _

/-- Acknowledgements carry nothing, so they do not show in a comparison. -/
theorem placed_acks {wires : List WireSegment} (h : ∀ wire ∈ wires, ¬wire.Sequenced) :
    placed wires = [] := by
  refine List.flatMap_eq_nil_iff.mpr fun wire hmem => ?_
  have hlen : (itemsOf wire.payload wire.flags).length = 0 := by
    rw [itemsOf_length]
    exact Nat.eq_zero_of_not_pos (h wire hmem)
  rw [WireSegment.placed, List.eq_nil_of_length_eq_zero hlen]
  split <;> rfl

theorem placed_resets {wires : List WireSegment} (h : ∀ wire ∈ wires, wire.flags.rst = true) :
    placed wires = [] :=
  List.flatMap_eq_nil_iff.mpr fun wire hmem => by rw [WireSegment.placed, if_pos (h wire hmem)]

/-- The items of a payload are those of its first chunk and those of the rest. -/
theorem itemsOf_split (flags : Flags) (isFirst : Bool) (mss : Nat) (rest : Bytes) :
    itemsOf rest (flags.closing isFirst) =
      itemsOf (rest.take mss) (flags.within isFirst) ++
        itemsOf (rest.drop mss) (flags.closing false) := by
  have hbytes : rest.map Item.byte = (rest.take mss).map .byte ++ (rest.drop mss).map .byte := by
    rw [← List.map_append, List.take_append_drop]
  simp only [itemsOf, Flags.closing, Flags.within, hbytes, Bool.and_false, Bool.false_eq_true,
    if_false, List.append_assoc, List.nil_append, List.append_nil]
  rfl

namespace Conn

variable {cfg : Settings} {turn : Turn} {c c' c'' : Conn} {flags : Flags} {mss : Nat}

/-- The chunks of a reset are resets, which place nothing. -/
theorem sendTCPLoop_reset (hrst : flags.rst = true) (fuel : Nat) (c : Conn) (sequence : Seq)
    (isFirst : Bool) (rest : Bytes) (segments : List SentSegment) :
    ∃ wires, (sendTCPLoop cfg mss flags false fuel c sequence isFirst rest segments).1 =
      c.emit wires ∧ ∀ wire ∈ wires, wire.flags.rst = true := by
  induction fuel generalizing c sequence isFirst rest segments with
  | zero => exact ⟨[], (emit_nil c).symm, by simp⟩
  | succ fuel ih =>
      unfold sendTCPLoop
      dsimp only
      split
      · refine ⟨_, sendChunk_resend cfg c _ _ _, fun wire hmem => ?_⟩
        rw [List.mem_singleton.mp hmem]
        exact hrst
      · rw [sendChunk_resend]
        obtain ⟨wires, hloop, hresets⟩ :=
          ih (c.emit [c.wire cfg sequence (rest.take mss) _]) _ _ _ _
        refine ⟨_, hloop.trans (emit_emit _ _ _), fun wire hmem => ?_⟩
        rcases List.mem_append.mp hmem with hfirst | hrest
        · rw [List.mem_singleton.mp hfirst]
          exact hrst
        · exact hresets wire hrest

/-- However a payload is cut, its chunks together carry its items under the same
numbers. -/
theorem Segmented.places {sequence : Seq} {isFirst : Bool} {rest : Bytes}
    {wires : List WireSegment} (hrst : flags.rst = false)
    (h : Segmented (c.wire cfg) mss flags sequence isFirst rest wires) :
    placed wires = spread sequence (itemsOf rest (flags.closing isFirst)) := by
  have hone : ∀ sequence chunk (segmentFlags : Flags), segmentFlags.rst = false →
      (c.wire cfg sequence chunk segmentFlags).placed =
        spread sequence (itemsOf chunk segmentFlags) :=
    fun _ _ _ hrst => if_neg (by simpa [wire] using hrst)
  induction h with
  | last _ =>
      rw [placed_singleton]
      exact hone _ _ _ hrst
  | @more sequence isFirst rest wires hmore _ ih =>
      have hlen : (itemsOf (rest.take mss) (flags.within isFirst)).length =
          mss + (flags.syn && isFirst).toNat := by
        rw [itemsOf_length]
        unfold sequenceLength Flags.within
        rw [List.length_take_of_le hmore.le]
        cases flags.syn && isFirst <;> rfl
      have hfirst := hone sequence (rest.take mss) (flags.within isFirst) hrst
      rw [← List.singleton_append, placed_append, placed_singleton, ih, hfirst,
        itemsOf_split flags isFirst mss, spread_append, hlen]
      rfl

/-- A retransmission carries the items of its segment, whatever the connection. -/
theorem resend_places (cfg : Settings) (c : Conn) (segment : Segment) :
    ∃ wires, c.resend cfg segment = c.emit wires ∧ placed wires =
      if segment.flags.rst then [] else spread segment.seq segment.items := by
  cases hrst : segment.flags.rst with
  | true =>
      obtain ⟨wires, hwires, hresets⟩ := @sendTCPLoop_reset cfg segment.flags (c.tcpMss cfg) hrst
        (segment.payload.length + 1) c segment.seq true segment.payload []
      exact ⟨wires, hwires, placed_resets hresets⟩
  | false =>
      obtain ⟨wires, hsegmented, hloop⟩ := @sendTCPLoop_segmented cfg (c.tcpMss cfg) segment.flags
        false (segment.payload.length + 1) segment.payload (tcpMss_pos cfg c) (by simp [hrst])
        (Nat.lt_succ_self _) c segment.seq true []
      have hemit : c.resend cfg segment = c.emit wires := congrArg Prod.fst hloop
      have hclosing : segment.flags.closing true = segment.flags := by simp [Flags.closing]
      refine ⟨wires, hemit, ?_⟩
      rw [Segmented.places hrst hsegmented, hclosing]
      rfl

/-- The queue takes what `sendTCP` emits next: it is open, and the numbers
match. -/
structure Tracking (c : Conn) : Prop where
  opened : c.send.retransmission.closed = false
  live : c.send.retransmission.exhausted = false
  next : c.send.relaySeq = c.send.retransmission.sndNxt

theorem Sending.tracking (h : c.Sending cfg) : c.Tracking := ⟨h.opened, h.live, h.next⟩

/-- Persist mode has been entered at a closed window only. -/
def Shut (c : Conn) : Prop := c.send.retransmission.persist = true → c.send.vmWindow = 0

/-- From `c` to `c'`, the segments `new` have joined the queue. Unless persist
mode has been left on the way, nothing but their items has been sent. -/
structure Adds (c c' : Conn) (new : List Segment) : Prop where
  tracking : c'.Tracking
  segments : c'.send.retransmission.segments = c.send.retransmission.segments ++ new
  sndUna : c'.send.retransmission.sndUna = c.send.retransmission.sndUna
  sndNxt : c'.send.retransmission.sndNxt =
    position c.send.retransmission.sndNxt (segmentItems new).length
  vmWindow : c'.send.vmWindow = c.send.vmWindow
  persist : c'.send.retransmission.persist = true →
    c.send.retransmission.persist = true ∨ c.send.vmWindow = 0
  sent : ∃ wires, c'.sent = c.sent ++ wires ∧ (c.Shut → ∀ entry ∈ placed wires,
    ∃ k < (segmentItems new).length, entry.1 = position c.send.retransmission.sndNxt k)

namespace Adds

theorem shut {new : List Segment} (h : Adds c c' new) (hshut : c.Shut) : c'.Shut := fun hon =>
  h.vmWindow.trans ((h.persist hon).elim hshut id)

theorem of_segments (htracking : c'.Tracking)
    (hsegments : c'.send.retransmission.segments = c.send.retransmission.segments)
    (huna : c'.send.retransmission.sndUna = c.send.retransmission.sndUna)
    (hnxt : c'.send.retransmission.sndNxt = c.send.retransmission.sndNxt)
    (hwindow : c'.send.vmWindow = c.send.vmWindow)
    (hpersist : c'.send.retransmission.persist = true →
      c.send.retransmission.persist = true ∨ c.send.vmWindow = 0)
    {wires : List WireSegment} (hsent : c'.sent = c.sent ++ wires) (hnone : c.Shut → wires = []) :
    Adds c c' [] :=
  ⟨htracking, by rw [hsegments, List.append_nil], huna, by simpa using hnxt, hwindow, hpersist,
    wires, hsent, fun hshut => by rw [hnone hshut]; simp [placed]⟩

theorem refl (h : c.Tracking) : Adds c c [] :=
  of_segments h rfl rfl rfl rfl .inl (List.append_nil c.sent).symm fun _ => rfl

/-- What two functions add one after another. -/
theorem trans {new new' : List Segment} (h : Adds c c' new) (h' : Adds c' c'' new') :
    Adds c c'' (new ++ new') := by
  have hlen : (segmentItems (new ++ new')).length =
      (segmentItems new).length + (segmentItems new').length := by
    rw [segmentItems_append, List.length_append]
  obtain ⟨wires, hsent, hall⟩ := h.sent
  obtain ⟨wires', hsent', hall'⟩ := h'.sent
  constructor
  · exact h'.tracking
  · rw [h'.segments, h.segments, List.append_assoc]
  · exact h'.sndUna.trans h.sndUna
  · rw [h'.sndNxt, h.sndNxt, position_add, hlen]
  · exact h'.vmWindow.trans h.vmWindow
  · exact fun hon => (h'.persist hon).elim h.persist fun hw => .inr (h.vmWindow.symm.trans hw)
  · refine ⟨wires ++ wires', by rw [hsent', hsent, List.append_assoc], fun hshut entry hmem => ?_⟩
    rw [placed_append] at hmem
    rcases List.mem_append.mp hmem with hfirst | hrest
    · obtain ⟨k, hk, hentry⟩ := hall hshut entry hfirst
      exact ⟨k, by omega, hentry⟩
    · obtain ⟨k, hk, hentry⟩ := hall' (h.shut hshut) entry hrest
      exact ⟨(segmentItems new).length + k, by omega, by rw [hentry, h.sndNxt, position_add]⟩

end Adds

/-- Whatever joins the queue joins it at its end. -/
def Extends (c c' : Conn) : Prop := c.Tracking → ∃ new, Adds c c' new

theorem Extends.trans (h : Extends c c') (h' : Extends c' c'') : Extends c c'' := fun htracking => by
  obtain ⟨new, hadds⟩ := h htracking
  obtain ⟨new', hadds'⟩ := h' hadds.tracking
  exact ⟨new ++ new', hadds.trans hadds'⟩

theorem tracked_segments (q : RetransmissionQueue) (sent : SentSegment) :
    ∃ segment : Segment, (q.tracked sent).segments = q.segments ++ [segment] ∧
      segment.items = itemsOf sent.payload sent.flags := by
  unfold RetransmissionQueue.tracked
  split
  · rw [RetransmissionQueue.armTimer_segments]
    exact ⟨_, rfl, rfl⟩
  · exact ⟨_, rfl, rfl⟩

/-- One new segment, at the end of the queue. -/
theorem sendTrackedTCP_extends {payload : Bytes} (hshort : payload.length ≤ c.tcpMss cfg)
    (hitems : itemsOf payload flags ≠ []) (hrst : flags.rst = false)
    (h : c.sendTrackedTCP cfg payload flags none true = .ok c') : Extends c c' := by
  rintro ⟨hopen, hlive, hnext⟩
  rw [sendTrackedTCP_eq cfg hopen hlive hnext hshort hitems hrst] at h
  cases h
  obtain ⟨segment, hsegments, hsame⟩ :=
    tracked_segments c.send.retransmission { seq := c.send.relaySeq, payload, flags }
  have hone : segmentItems [segment] = itemsOf payload flags := by
    rw [segmentItems_cons, segmentItems_nil, List.append_nil, hsame]
  refine ⟨[segment], ⟨?_, ?_, ?_⟩, hsegments, ?_, ?_, rfl, ?_, _, rfl, ?_⟩
  · exact RetransmissionQueue.tracked_closed.trans hopen
  · exact RetransmissionQueue.tracked_exhausted.trans hlive
  · have hnxt : (c.transmit cfg payload flags).send.retransmission.sndNxt =
        c.send.retransmission.sndNxt + BitVec.ofNat 32 (sequenceLength payload flags) :=
      RetransmissionQueue.tracked_sndNxt
    rw [hnxt, ← hnext]
    rfl
  · exact RetransmissionQueue.tracked_sndUna
  · rw [hone, itemsOf_length]
    exact RetransmissionQueue.tracked_sndNxt
  · exact fun hon => .inl (RetransmissionQueue.tracked_persist.symm.trans hon)
  · intro _ entry hmem
    rw [placed_singleton, WireSegment.placed, if_neg (by simpa [wire] using hrst)] at hmem
    obtain ⟨k, hk, hentry⟩ := number_of_spread hmem
    rw [hone, ← hnext]
    exact ⟨k, hk, hentry⟩

/-- Each part of the send loop extends the queue at its end, so the loop does. -/
theorem extends_persists (cfg : Settings) : Persists cfg Extends where
  trans := Extends.trans
  quiet {c c'} h := by
    rintro ⟨hopen, hlive, hnext⟩
    refine ⟨[], .of_segments ⟨?_, ?_, ?_⟩ ?_ ?_ ?_ h.vmWindow ?_
      (h.sent.trans (List.append_nil c.sent).symm) fun _ => rfl⟩
    · rwa [h.retransmission]
    · rwa [h.retransmission]
    · rwa [h.retransmission, h.relaySeq]
    · rw [h.retransmission]
    · rw [h.retransmission]
    · rw [h.retransmission]
    · rw [h.retransmission]
      exact .inl
  data {c c' payload} hpayload hshort h := by
    refine sendTrackedTCP_extends hshort (fun hnil => hpayload ?_) rfl h
    simpa [itemsOf] using hnil
  fin {c c'} _ h htracking := by
    have hmarked : c.markFin.Tracking := ⟨htracking.opened, htracking.live, htracking.next⟩
    have hsend : c.markFin.sendTrackedTCP cfg [] { fin := true, ack := true } none true = .ok c' := h
    obtain ⟨new, hadds⟩ :=
      sendTrackedTCP_extends (Nat.zero_le _) (by simp [itemsOf]) rfl hsend hmarked
    exact ⟨new, hadds.tracking, hadds.segments, hadds.sndUna, hadds.sndNxt, hadds.vmWindow,
      hadds.persist, hadds.sent⟩

/-- Switching persist mode on or off changes no segment of the queue. The oldest
one is repeated only where an open window switches persist mode off. -/
theorem setPersist_adds (cfg : Settings) (turn : Turn) (hreg : c.registered = true)
    (htracking : c.Tracking) : Adds c (c.setPersist cfg turn c.wantsPersist) [] := by
  by_cases hsame : c.send.retransmission.persist = c.wantsPersist
  · rw [setPersist_same cfg turn hsame]
    exact .refl htracking
  have hswitched : ∀ wires, (c.Shut → wires = []) → Adds c
      ((c.withQueue (c.send.retransmission.switchPersist c.wantsPersist)).emit wires).armed [] := by
    intro wires hnone
    refine .of_segments ⟨?_, ?_, ?_⟩ ?_ ?_ ?_ rfl ?_ rfl hnone
    all_goals rw [armed, withQueue_retransmission, emit_send, withQueue_retransmission]
    · rw [RetransmissionQueue.armTimer_closed]
      exact htracking.opened
    · rw [RetransmissionQueue.armTimer_exhausted]
      exact htracking.live
    · rw [RetransmissionQueue.armTimer_sndNxt]
      exact htracking.next
    · rw [RetransmissionQueue.armTimer_segments]
      rfl
    · rw [RetransmissionQueue.armTimer_sndUna]
      rfl
    · rw [RetransmissionQueue.armTimer_sndNxt]
      rfl
    · rw [RetransmissionQueue.armTimer_persist]
      intro hon
      have hwants : c.wantsPersist = true := hon
      rw [wantsPersist, Bool.and_eq_true, decide_eq_true_eq] at hwants
      exact .inr hwants.1
  obtain ⟨-, he⟩ | ⟨-, -, -, he⟩ | ⟨segment, hoff, hold, -, -, he⟩ :=
    setPersist_cases cfg turn c c.wantsPersist
  · rw [he]
    exact .refl htracking
  · rw [he]
    have hquiet := hswitched [] fun _ => rfl
    rwa [emit_nil] at hquiet
  · rw [he]
    unfold onRetransmit
    rw [if_neg (by simp [hreg])]
    dsimp only
    rw [if_neg (by decide), resend_wires]
    refine hswitched _ fun hshut => ?_
    -- At a closed window, what is outstanding keeps the connection in persist mode.
    have hout : c.send.retransmission.hasOutstanding = true := by
      cases hsegments : c.send.retransmission.segments with
      | nil => simp [RetransmissionQueue.oldest, hsegments] at hold
      | cons first rest => simp [RetransmissionQueue.hasOutstanding, hsegments]
    rw [hoff, Bool.not_eq_false] at hsame
    rw [wantsPersist, hshut hsame, hout] at hoff
    cases hoff

theorem drainTCPToVM_extends {rateLimited : Bool} (hreg : c.registered = true)
    (h : c.drainTCPToVM cfg turn rateLimited = .ok c') : Extends c c' :=
  fun htracking =>
    have hmarked : ({ c with send := { c.send with sending := true } } : Conn).Tracking :=
      ⟨htracking.opened, htracking.live, htracking.next⟩
    (extends_persists cfg).drainTCPToVM
      (fun _ => ⟨[], setPersist_adds cfg turn hreg hmarked⟩) h htracking

end Conn

end RootlessRelay
