import RootlessRelay.Tcp.Pushed

/-!
# The acknowledgement part of the handlers

Both handlers treat the acknowledgement number of a segment alike (`noteAck`)
before they go their own ways: `handleTCP` runs the send loop once after an
acknowledgement that advanced or a window that changed, `handleReverseTCP` after
each of the two.

On an open connection a handler is its parts put together (`handleParts`): note
the acknowledgement, go on from there, and process payload and FIN.
`handleTCP_eq` and `handleReverseTCP_eq` are these equations, and what follows
about handlers is proved of the parts. The handshake is not among them, for a
connection that is open has completed it.
-/

namespace RootlessRelay

open SequenceSpace Transition SendStream

namespace Conn

section Definitions

variable (cfg : Settings) (turn : Turn)

/-- What both handlers do with an acknowledgement number before they finish the
connection, send or return. Also gives the status and whether the window
changed. -/
def noteAck (c : Conn) (seg : VMSegment) : Outcome (Conn × AckStatus × Bool) :=
  match c.acknowledge seg.ackNum with
  | .error thrown => .error thrown
  | .ok (c, result) =>
    if result.status = .future ∨ result.status = .stale then .ok (c, result.status, false)
    else
      let (c, windowChanged) := c.updateTCPWindow seg.seqNum seg.ackNum seg.window.toNat
      let c :=
        if result.status = .advanced then c.noteAdvancedAck cfg result.ackedDataBytes seg.ackNum
        else if c.isDuplicateAck seg windowChanged then c.noteDuplicateAck cfg turn seg.ackNum
        else c
      .ok (c, result.status, windowChanged)

/-- `conn.dupAckCount = 0` where the window has changed. -/
def resetDup (c : Conn) (windowChanged : Bool) : Conn :=
  if windowChanged then { c with send := { c.send with dupAckCount := 0 } } else c

/-- How `handleTCP` goes on. The returned Boolean says that it returns. -/
def proceedTCP (c : Conn) (status : AckStatus) (windowChanged : Bool) : Outcome (Conn × Bool) :=
  if status = .future ∨ status = .stale then .ok (c, true)
  else if status = .advanced ∨ windowChanged then
    if c.bothClosed then .ok (c.finishTCPConnection, true)
    else ((c.resetDup windowChanged).trySendToVM cfg turn).map fun c => (c, false)
  else .ok (c, false)

/-- How `handleReverseTCP` goes on, with the send loop at two places. -/
def proceedReverseTCP (c : Conn) (status : AckStatus) (windowChanged : Bool) :
    Outcome (Conn × Bool) :=
  if status = .future ∨ status = .stale then .ok (c, true)
  else if status = .advanced ∧ c.bothClosed then .ok (c.finishReverseConnection, true)
  else
    match (if status = .advanced then c.trySendReverseToVM cfg turn else .ok c) with
    | .error thrown => .error thrown
    | .ok c =>
      if windowChanged then
        ((c.resetDup true).trySendReverseToVM cfg turn).map fun c => (c, false)
      else .ok (c, false)

/-- A handler in its parts: note the acknowledgement, go on from there, and
process payload and FIN. -/
def handleParts (proceed : Conn → AckStatus → Bool → Outcome (Conn × Bool))
    (data : Conn → VMSegment → Conn) (c : Conn) (seg : VMSegment) : Outcome Conn :=
  if !seg.ack then .ok (data c seg)
  else
    match c.noteAck cfg turn seg with
    | .error thrown => .error thrown
    | .ok (c, status, windowChanged) =>
      match proceed c status windowChanged with
      | .error thrown => .error thrown
      | .ok (c, true) => .ok c
      | .ok (c, false) => .ok (data c seg)

end Definitions

variable {cfg : Settings} {turn : Turn} {c c' : Conn} {seg : VMSegment}

theorem onRetransmit_state (cfg : Settings) (c : Conn) (segment : Segment) (reason : Reason) :
    (c.onRetransmit cfg segment reason).state = c.state := by
  unfold onRetransmit
  split
  · rfl
  · dsimp only
    obtain ⟨wires, hwires⟩ := resend_eq cfg
      (if reason ≠ .windowOpen then c.onTCPCongestionLoss cfg reason else c) segment
    rw [hwires, emit_state]
    split
    · unfold onTCPCongestionLoss
      dsimp only
      split <;> rfl
    · rfl

theorem fastRetransmit_state (cfg : Settings) (turn : Turn) (c : Conn) :
    (c.fastRetransmit cfg turn).state = c.state := by
  obtain he | ⟨segment, -, -, -, he⟩ := fastRetransmit_cases cfg turn c
  · rw [he]
  · rw [he]
    exact onRetransmit_state cfg _ segment .fast

/-- What an acknowledgement that advanced leaves alone once the queue has been
cut. Congestion control may repeat the head, which changes no field of these. -/
theorem noteAdvancedAck_frame (cfg : Settings) (c : Conn) (ackedDataBytes : Nat) (ackNum : Seq) :
    (c.noteAdvancedAck cfg ackedDataBytes ackNum).state = c.state ∧
      (c.noteAdvancedAck cfg ackedDataBytes ackNum).recv = c.recv ∧
      (c.noteAdvancedAck cfg ackedDataBytes ackNum).send.sendQueue = c.send.sendQueue ∧
      (c.noteAdvancedAck cfg ackedDataBytes ackNum).send.finSent = c.send.finSent ∧
      (c.noteAdvancedAck cfg ackedDataBytes ackNum).send.retransmission =
        c.send.retransmission := by
  unfold noteAdvancedAck onTCPCongestionAck
  dsimp only
  split
  · exact ⟨rfl, rfl, rfl, rfl, rfl⟩
  split
  · split
    · exact ⟨rfl, rfl, rfl, rfl, rfl⟩
    · unfold retransmitTCPRecoveryHead
      split
      · exact ⟨rfl, rfl, rfl, rfl, rfl⟩
      · rename_i segment _
        obtain ⟨wires, hwires⟩ := resend_eq cfg { c with send := { c.send with
          dupAckCount := 0
          fastRetransmitAck := some c.send.retransmission.sndUna
          vmLastAck := c.send.retransmission.sndUna } } segment
        rw [hwires]
        exact ⟨rfl, rfl, rfl, rfl, rfl⟩
  · exact ⟨rfl, rfl, rfl, rfl, rfl⟩

theorem noteDuplicateAck_state (cfg : Settings) (turn : Turn) (c : Conn) (ackNum : Seq) :
    (c.noteDuplicateAck cfg turn ackNum).state = c.state := by
  unfold noteDuplicateAck
  dsimp only
  split
  · split
    · exact fastRetransmit_state cfg turn _
    · rfl
  · rfl

theorem acknowledge_frame {ackNum : Seq} {result : AckResult}
    (h : c.acknowledge ackNum = .ok (c', result)) :
    c'.state = c.state ∧ c'.recv = c.recv ∧ c'.sent = c.sent := by
  unfold acknowledge at h
  split at h
  · cases h
  · cases h
    exact ⟨rfl, rfl, rfl⟩

theorem updateTCPWindow_frame (c : Conn) (sequence ack : Seq) (window : Nat) :
    (c.updateTCPWindow sequence ack window).1.state = c.state ∧
      (c.updateTCPWindow sequence ack window).1.recv = c.recv ∧
      (c.updateTCPWindow sequence ack window).1.sent = c.sent := by
  unfold updateTCPWindow
  split <;> exact ⟨rfl, rfl, rfl⟩

/-- Noting an acknowledgement leaves the state for later. -/
theorem noteAck_state {status : AckStatus} {windowChanged : Bool}
    (h : c.noteAck cfg turn seg = .ok (c', status, windowChanged)) : c'.state = c.state := by
  unfold noteAck at h
  split at h
  · cases h
  rename_i c₁ result hacked
  have hstate := (updateTCPWindow_frame c₁ seg.seqNum seg.ackNum seg.window.toNat).1.trans
    (acknowledge_frame hacked).1
  split at h
  · cases h
    exact (acknowledge_frame hacked).1
  · cases h
    dsimp only
    split
    · exact (noteAdvancedAck_frame cfg _ _ _).1.trans hstate
    split
    · exact (noteDuplicateAck_state cfg turn _ _).trans hstate
    · exact hstate

/-- The part of `handleTCP` from the state on, for an open connection. -/
theorem handleTCPState_open (hopen : c.state.isOpen = true) (seg : VMSegment)
    (status : AckStatus) (windowChanged : Bool) :
    c.handleTCPState cfg turn seg (some status) windowChanged =
      if status = .advanced ∨ windowChanged then
        if c.bothClosed then .ok c.finishTCPConnection
        else ((c.resetDup windowChanged).trySendToVM cfg turn).map
          fun c => c.handleTCPData cfg turn seg
      else .ok (c.handleTCPData cfg turn seg) := by
  unfold handleTCPState handleTCPEstablished
  rw [if_neg (not_synSent_of_isOpen hopen), if_neg (by simp [hopen])]
  by_cases hprogress : status = .advanced ∨ windowChanged = true
  · have hyes : (decide (some status = some .advanced) || windowChanged) = true := by
      simpa using hprogress
    rw [hyes, if_pos hprogress]
    simp only [Bool.true_and, if_true]
    split
    · rfl
    · unfold resetDup
      cases (if windowChanged = true then { c with send := { c.send with dupAckCount := 0 } }
        else c).trySendToVM cfg turn <;> rfl
  · have hno : (decide (some status = some .advanced) || windowChanged) = false := by
      simpa using hprogress
    rw [hno, if_neg hprogress]
    simp only [Bool.false_and, Bool.false_eq_true, if_false]

/-- On an open connection `handleTCP` consists of its parts. Resets and repeated
SYNs are left to their own branches. -/
theorem handleTCP_eq (hopen : c.state.isOpen = true) (hsyn : (seg.syn && !seg.ack) = false)
    (hrst : seg.rst = false) :
    c.handleTCP cfg turn seg =
      c.handleParts cfg turn (proceedTCP cfg turn) (handleTCPData cfg turn) seg := by
  unfold handleTCP handleParts
  rw [if_neg (by simp [hsyn]), if_neg (by simp [hrst])]
  by_cases hack : seg.ack = true
  swap
  · rw [if_pos (by simpa using hack), if_pos (by simpa using hack)]
    simp [handleTCPState, handleTCPEstablished, not_synSent_of_isOpen hopen, hopen]
  rw [if_neg (by simp [hack]), if_neg (by simp [hack])]
  unfold noteAck
  cases hacked : c.acknowledge seg.ackNum with
  | error thrown => rfl
  | ok result =>
      obtain ⟨c₁, status, ackedDataBytes⟩ := result
      dsimp only
      by_cases hignored : status = .future ∨ status = .stale
      · simp only [hignored, if_true, proceedTCP]
      rw [if_neg hignored, if_neg hignored]
      have hstate := (updateTCPWindow_frame c₁ seg.seqNum seg.ackNum seg.window.toNat).1.trans
        (acknowledge_frame hacked).1
      generalize c₁.updateTCPWindow seg.seqNum seg.ackNum seg.window.toNat = result at hstate ⊢
      obtain ⟨c₂, windowChanged⟩ := result
      dsimp only at hstate ⊢
      have hnoted : (if status = .advanced then c₂.noteAdvancedAck cfg ackedDataBytes seg.ackNum
          else if c₂.isDuplicateAck seg windowChanged = true then
            c₂.noteDuplicateAck cfg turn seg.ackNum
          else c₂).state = c.state := by
        split
        · rw [(noteAdvancedAck_frame cfg c₂ ackedDataBytes seg.ackNum).1, hstate]
        split
        · rw [noteDuplicateAck_state, hstate]
        · exact hstate
      generalize (if status = .advanced then c₂.noteAdvancedAck cfg ackedDataBytes seg.ackNum
          else if c₂.isDuplicateAck seg windowChanged = true then
            c₂.noteDuplicateAck cfg turn seg.ackNum
          else c₂) = c₃ at hnoted ⊢
      rw [handleTCPState_open (by rw [hnoted]; exact hopen)]
      unfold proceedTCP
      rw [if_neg hignored]
      split
      · split
        · rfl
        · cases (c₃.resetDup windowChanged).trySendToVM cfg turn <;> rfl
      · rfl

/-- On an open connection `handleReverseTCP` consists of its parts, once the
idle timer has been restarted. -/
theorem handleReverseTCP_eq (hopen : c.state.isOpen = true)
    (hsyn : (seg.syn && seg.ack) = false) (hrst : seg.rst = false) :
    c.handleReverseTCP cfg turn seg =
      ({ c with idleTimer := true } : Conn).handleParts cfg turn (proceedReverseTCP cfg turn)
        (handleReverseTCPData cfg turn) seg := by
  unfold handleReverseTCP handleParts
  dsimp only
  rw [if_neg (by simp [hrst]), if_neg (not_synSent_of_isOpen hopen), if_neg (by simp [hsyn]),
    if_neg (by simp [hopen])]
  by_cases hack : seg.ack = true
  swap
  · rw [if_pos (by simpa using hack), if_pos (by simpa using hack)]
  rw [if_neg (by simp [hack]), if_neg (by simp [hack])]
  unfold handleReverseTCPAck noteAck
  cases hacked : ({ c with idleTimer := true } : Conn).acknowledge seg.ackNum with
  | error thrown => rfl
  | ok result =>
      obtain ⟨c₁, status, ackedDataBytes⟩ := result
      dsimp only
      by_cases hignored : status = .future ∨ status = .stale
      · simp only [hignored, if_true, proceedReverseTCP]
      rw [if_neg hignored, if_neg hignored]
      generalize c₁.updateTCPWindow seg.seqNum seg.ackNum seg.window.toNat = result
      obtain ⟨c₂, windowChanged⟩ := result
      dsimp only
      unfold proceedReverseTCP
      rw [if_neg hignored]
      by_cases hadvanced : status = .advanced
      · simp only [hadvanced, if_true, true_and]
        by_cases hboth : (c₂.noteAdvancedAck cfg ackedDataBytes seg.ackNum).bothClosed = true
        · simp only [hboth, if_true]
        · simp only [hboth, Bool.false_eq_true, if_false]
          cases (c₂.noteAdvancedAck cfg ackedDataBytes seg.ackNum).trySendReverseToVM cfg turn with
          | error thrown => rfl
          | ok c₃ => cases windowChanged <;> rfl
      · simp only [hadvanced, if_false, false_and]
        cases c₂.isDuplicateAck seg windowChanged <;> cases windowChanged <;> rfl

theorem not_bothClosed_iff (c : Conn) : c.bothClosed = false ↔
    (c.recv.peerFin = true → c.send.finSent = true → c.send.retransmission.segments ≠ []) := by
  cases hpeer : c.recv.peerFin <;> cases hfin : c.send.finSent <;>
    simp [bothClosed, hpeer, hfin, RetransmissionQueue.hasOutstanding]

/-- Without an acknowledgement, a FIN that enters sequence space stays
outstanding. -/
theorem Sending.not_bothClosed (h : c.Sending cfg) (h' : c'.Sending cfg)
    (hhistory : c.stream.history <+: c'.stream.history)
    (hacked : c'.send.acknowledged = c.send.acknowledged)
    (hpeer : c'.recv.peerFin = c.recv.peerFin) (hnot : c.bothClosed = false) :
    c'.bothClosed = false := by
  rw [not_bothClosed_iff] at hnot ⊢
  intro hpeer' hfin' hnil
  have hitems : c'.stream.outstanding = [] := (h'.segments_nil hnil).2.2
  have hall : c'.stream.history = c.stream.acknowledged := by
    rw [State.history, hitems, List.append_nil]
    exact hacked
  -- Nothing is outstanding in `c'`, so the history of `c` has been acknowledged too.
  have hnone : c.stream.outstanding = [] := by
    have hlen := hhistory.length_le
    rw [hall, State.history, List.length_append] at hlen
    exact List.eq_nil_of_length_eq_zero (by omega)
  have hfin : c.send.finSent = true := by
    rw [← h.finTracked, State.history, hnone, List.append_nil, ← hall]
    exact h'.finTracked.mpr hfin'
  exact h.tracked.hasOutstanding_iff.mp (hnot (hpeer.symm.trans hpeer') hfin) hnone

theorem Evolves.not_bothClosed (h : c.Sending cfg) (hev : Evolves cfg c c')
    (hnot : c.bothClosed = false) : c'.bothClosed = false :=
  h.not_bothClosed hev.sending
    (history_prefix_of_reaches (hev.moves.imp fun _ hrun => hrun.unrestrict))
    (congrArg Frame.acknowledged hev.frame) (by rw [hev.recv]) hnot

theorem noteDuplicateAck_evolves (turn : Turn) (h : c.Sending cfg) (hreg : c.registered = true)
    (ackNum : Seq) : Evolves cfg c (c.noteDuplicateAck cfg turn ackNum) := by
  have hcount : ∀ (c : Conn) (dupAckCount : Nat), c.Sending cfg →
      Evolves cfg c { c with send := { c.send with dupAckCount } } :=
    fun c n hc => .of_stream { hc with } rfl rfl rfl
  unfold noteDuplicateAck
  dsimp only
  have hcounted := hcount c (c.send.dupAckCount + 1) h
  split
  · split
    · have hev := fastRetransmit_evolves turn hcounted.sending hreg
      exact (hcounted.trans hev).trans (hcount _ 0 hev.sending)
    · exact hcounted.trans (hcount _ 0 hcounted.sending)
  · exact hcounted

/-- Both sides have finished, and the number acknowledges all that is
outstanding: the handler finishes the connection and returns. -/
def Closes (c : Conn) (ackNum : Seq) : Prop :=
  c.recv.peerFin = true ∧ c.send.finSent = true ∧
    c.ackedItems ackNum = c.stream.outstanding.length

instance (c : Conn) (ackNum : Seq) : Decidable (c.Closes ackNum) :=
  inferInstanceAs (Decidable (_ ∧ _))

/-- A FIN that has been sent, with nothing outstanding behind the
acknowledgement. -/
theorem Live.bothClosed_of_closes (h : Live cfg c) (hready : Ready cfg c')
    (hmoves : Moves Proper c c') (hpeer : c'.recv.peerFin = c.recv.peerFin) {ackNum : Seq}
    (hcloses : c.Closes ackNum)
    (hitems : c'.send.retransmission.items = c.stream.outstanding.drop (c.ackedItems ackNum)) :
    c'.bothClosed = true := by
  obtain ⟨hfinished, hfin, hall⟩ := hcloses
  have hsent : c'.send.finSent = true := by
    have hgrown := history_prefix_of_reaches (hmoves.imp fun _ hrun => hrun.unrestrict)
    exact hready.sending.finTracked.mp (hgrown.subset (h.sending.finTracked.mpr hfin))
  rw [hall, List.drop_length] at hitems
  by_contra hopen
  exact hready.sending.tracked.hasOutstanding_iff.mp
    ((not_bothClosed_iff c').mp (Bool.eq_false_iff.mpr hopen) (hpeer.trans hfinished) hsent) hitems

/-- What `noteAck` leaves of a live connection, by the status of the
acknowledgement. -/
structure Noted (cfg : Settings) (c : Conn) (seg : VMSegment) (status : AckStatus) (c' : Conn) :
    Prop where
  ready : Ready cfg c'
  live : status ≠ .advanced → Live cfg c'
  sent : Sequences c c'
  moves : Moves Proper c c'
  context : c'.context = c.context
  recv : c'.recv = c.recv
  state : c'.state = c.state
  acceptable : (status ≠ .future ∧ status ≠ .stale) ↔ c.Acceptable seg.ackNum
  advances : status = .advanced → 0 < c.ackedItems seg.ackNum
  stays : status ≠ .advanced → c.bothClosed = false → c'.bothClosed = false
  closes : c.bothClosed = false → c.Closes seg.ackNum → status = .advanced ∧ c'.bothClosed = true

/-- The acknowledgement part on a live connection: it returns, and what it
leaves depends on the status of the acknowledgement. -/
theorem Live.noteAck (h : Live cfg c) (turn : Turn) (seg : VMSegment) :
    ∃ c' status windowChanged, c.noteAck cfg turn seg = .ok (c', status, windowChanged) ∧
      Noted cfg c seg status c' := by
  unfold Conn.noteAck
  obtain ⟨c₁, acked, he, hadv⟩ | ⟨q, status, he, hne, hdup, hq, hseg, hpersist, htimer, hnone⟩ :=
    acknowledge_spec h.sending seg.ackNum
  · rw [he]
    obtain ⟨hready, hmoves, hctx, hstate, -⟩ := h.advance seg.seqNum hadv seg.window
    obtain ⟨-, hrecv₁, hsent₁⟩ := acknowledge_frame he
    obtain ⟨-, hrecv₂, hsent₂⟩ :=
      updateTCPWindow_frame c₁ seg.seqNum seg.ackNum seg.window.toNat
    obtain ⟨vmWindow, windowUpdate, hc₂, -⟩ :=
      updateTCPWindow_eq c₁ seg.seqNum seg.ackNum seg.window
    have htracked : (c₁.updateTCPWindow seg.seqNum seg.ackNum
        seg.window.toNat).1.send.retransmission.WellTracked := by
      rw [hc₂]
      exact hadv.sending.tracked
    dsimp only
    rw [if_neg (by simp), if_pos rfl]
    refine ⟨_, _, _, rfl, hready, fun hne => absurd rfl hne, ?_, hmoves, hctx, ?_, hstate, ?_,
      fun _ => hadv.covered.1, fun hne => absurd rfl hne, fun _ hcloses => ⟨rfl, ?_⟩⟩
    · exact Sequences.trans (.of_sent (hsent₂.trans hsent₁))
        (noteAdvancedAck_sequences htracked acked seg.ackNum)
    · rw [(noteAdvancedAck_frame cfg _ acked seg.ackNum).2.1, hrecv₂, hrecv₁]
    · exact iff_of_true ⟨by decide, by decide⟩ hadv.covered.2
    · refine h.bothClosed_of_closes hready hmoves ?_ hcloses ?_
      · rw [(noteAdvancedAck_frame cfg _ acked seg.ackNum).2.1, hrecv₂, hrecv₁]
      · rw [(noteAdvancedAck_frame cfg _ acked seg.ackNum).2.2.2.2, hc₂]
        exact congrArg State.outstanding hadv.stream
  · rw [he]
    -- with everything acknowledged already, the connection would have been closed on both sides
    have hcloses : c.bothClosed = false → ¬c.Closes seg.ackNum := by
      rintro hnot ⟨hpeer, hfin, hall⟩
      refine hnone ⟨Nat.pos_of_ne_zero fun hzero => ?_, hall.le⟩
      have hitems := List.length_eq_zero_iff.mp (hall.symm.trans hzero)
      exact h.sending.tracked.hasOutstanding_iff.mp
        ((not_bothClosed_iff c).mp hnot hpeer hfin) hitems
    dsimp only
    by_cases hignored : status = .future ∨ status = .stale
    · rw [if_pos hignored]
      have hlive := h.withQueue hq hseg hpersist htimer
      refine ⟨_, _, _, rfl, hlive.toReady, fun _ => hlive, .of_sent rfl,
        .of_stream (Sending.withQueue_stream hq.items), rfl, rfl, rfl, ?_,
        fun hadvanced => absurd hadvanced hne, fun _ hnot => ?_,
        fun hnot hall => absurd hall (hcloses hnot)⟩
      · rw [← hdup]
        rcases hignored with rfl | rfl <;> simp
      · exact Evolves.not_bothClosed h.sending (.withQueue h.sending hq) hnot
    · rw [if_neg hignored, if_neg hne]
      obtain ⟨hlive, hmoves, hctx, hstate⟩ :=
        h.duplicate seg.seqNum seg.ackNum hq hseg hpersist htimer seg.window
      obtain ⟨-, hrecv₂, hsent₂⟩ :=
        updateTCPWindow_frame (c.withQueue q) seg.seqNum seg.ackNum seg.window.toNat
      have hboth : ((c.withQueue q).updateTCPWindow seg.seqNum seg.ackNum
          seg.window.toNat).1.bothClosed = c.bothClosed := by
        obtain ⟨vmWindow, windowUpdate, hc₂, -⟩ :=
          updateTCPWindow_eq (c.withQueue q) seg.seqNum seg.ackNum seg.window
        rw [hc₂]
        unfold bothClosed RetransmissionQueue.hasOutstanding
        simp only [withQueue_retransmission, withQueue_recv, hseg]
        rfl
      have hacceptable : c.Acceptable seg.ackNum := by
        rw [← hdup]
        cases status <;> simp_all
      generalize (c.withQueue q).updateTCPWindow seg.seqNum seg.ackNum seg.window.toNat = result
        at hlive hmoves hctx hstate hrecv₂ hsent₂ hboth ⊢
      obtain ⟨c₂, windowChanged⟩ := result
      dsimp only at hlive hmoves hctx hstate hrecv₂ hsent₂ hboth ⊢
      have hwaits : (status ≠ .future ∧ status ≠ .stale) ↔ c.Acceptable seg.ackNum :=
        iff_of_true (not_or.mp hignored) hacceptable
      split
      · obtain ⟨hlive', hmoves', hctx', -⟩ := hlive.noteDuplicateAck turn seg.ackNum
        have hev := noteDuplicateAck_evolves turn hlive.sending hlive.registered seg.ackNum
        refine ⟨_, _, _, rfl, hlive'.toReady, fun _ => hlive', ?_, hmoves.trans hmoves',
          hctx'.trans hctx, hev.recv.trans hrecv₂,
          (noteDuplicateAck_state cfg turn c₂ seg.ackNum).trans hstate, hwaits,
          fun hadvanced => absurd hadvanced hne, fun _ hnot => ?_,
          fun hnot hall => absurd hall (hcloses hnot)⟩
        · exact Sequences.trans (.of_sent hsent₂)
            (noteDuplicateAck_sequences turn hlive.sending.tracked seg.ackNum)
        · exact hev.not_bothClosed hlive.sending (hboth.trans hnot)
      · exact ⟨_, _, _, rfl, hlive.toReady, fun _ => hlive, .of_sent hsent₂, hmoves, hctx, hrecv₂,
          hstate, hwaits, fun hadvanced => absurd hadvanced hne, fun _ hnot => hboth.trans hnot,
          fun hnot hall => absurd hall (hcloses hnot)⟩

end Conn

end RootlessRelay
