import RootlessRelay.Tcp.DuplicateAcks
import RootlessRelay.Tcp.FinInSequence
import RootlessRelay.Tcp.Repeats

/-!
# Two connections with equal fields

`ProtocolFields` are the fields the handlers read when a segment arrives, apart from
what waits to be sent. Two connections with equal fields treat an acknowledgement number
alike: they come to equal fields again, the mark of the last fast retransmission among
them, and what they send on the way carries the same items under the same numbers.

The send loop that runs afterwards reads more than these fields, so the two may send
different new data. It can change two of the fields: whether the FIN has left, and with
it the state.
-/

namespace RootlessRelay

open SequenceSpace Transition SendStream

deriving instance DecidableEq for ReceiveSide, SendSide

namespace Conn

/-- The fields of a connection that the handlers read, apart from what they
send. The recovery point of congestion control is one of them: it decides
whether an acknowledgement repeats the oldest segment. -/
structure ProtocolFields where
  state : ConnState
  recv : ReceiveSide
  retransmission : RetransmissionQueue
  vmWindow : Nat
  windowUpdate : Option (Seq × Seq)
  dupAckCount : Nat
  fastRetransmitAck : Option Seq
  congestionRecoveryUntil : Option Seq
  pendingFin : Bool
  finSent : Bool
  deriving DecidableEq

/-- These fields of a connection. -/
def protocolFields (c : Conn) : ProtocolFields where
  state := c.state
  recv := c.recv
  retransmission := c.send.retransmission
  vmWindow := c.send.vmWindow
  windowUpdate := c.send.windowUpdate
  dupAckCount := c.send.dupAckCount
  fastRetransmitAck := c.send.fastRetransmitAck
  congestionRecoveryUntil := c.send.congestionRecoveryUntil
  pendingFin := c.send.pendingFin
  finSent := c.send.finSent

variable {cfg : Settings} {turn turn₁ turn₂ : Turn} {c c' c₁ c₂ d₁ d₂ e₁ e₂ : Conn}
  {seg : VMSegment}

/-- Two connections come to equal fields, and what they have sent on the way
carries the same. -/
structure Twin (c₁ c₂ d₁ d₂ : Conn) : Prop where
  fields : d₁.protocolFields = d₂.protocolFields
  repeats : ∃ wires₁ wires₂, d₁.sent = c₁.sent ++ wires₁ ∧ d₂.sent = c₂.sent ++ wires₂ ∧
    placed wires₁ = placed wires₂

namespace Twin

theorem of_fields (h : d₁.protocolFields = d₂.protocolFields) (h₁ : d₁.sent = c₁.sent)
    (h₂ : d₂.sent = c₂.sent) : Twin c₁ c₂ d₁ d₂ :=
  ⟨h, [], [], by rw [h₁, List.append_nil], by rw [h₂, List.append_nil], rfl⟩

/-- Neither sends anything more; the fields change alike. -/
theorem update (h : Twin c₁ c₂ d₁ d₂) (hfields : e₁.protocolFields = e₂.protocolFields)
    (h₁ : e₁.sent = d₁.sent) (h₂ : e₂.sent = d₂.sent) : Twin c₁ c₂ e₁ e₂ := by
  obtain ⟨-, wires₁, wires₂, hsent₁, hsent₂, hplaced⟩ := h
  exact ⟨hfields, wires₁, wires₂, h₁.trans hsent₁, h₂.trans hsent₂, hplaced⟩

/-- `Twin` looks only at what the first two have sent, not at their fields. -/
theorem rebase (h : Twin c₁ c₂ d₁ d₂) (h₁ : c₁.sent = e₁.sent) (h₂ : c₂.sent = e₂.sent) :
    Twin e₁ e₂ d₁ d₂ := by
  obtain ⟨hfields, wires₁, wires₂, hsent₁, hsent₂, hplaced⟩ := h
  exact ⟨hfields, wires₁, wires₂, by rw [hsent₁, h₁], by rw [hsent₂, h₂], hplaced⟩

/-- Both repeat one segment, each under its own MSS. -/
theorem resend (cfg : Settings) (h : c₁.protocolFields = c₂.protocolFields) (segment : Segment) :
    Twin c₁ c₂ (c₁.resend cfg segment) (c₂.resend cfg segment) := by
  obtain ⟨wires₁, he₁, hplaced₁⟩ := resend_places cfg c₁ segment
  obtain ⟨wires₂, he₂, hplaced₂⟩ := resend_places cfg c₂ segment
  rw [he₁, he₂]
  exact ⟨h, wires₁, wires₂, rfl, rfl, hplaced₁.trans hplaced₂.symm⟩

end Twin

section Fields

variable (h : c₁.protocolFields = c₂.protocolFields)
include h

theorem retransmission_congr : c₁.send.retransmission = c₂.send.retransmission :=
  congrArg ProtocolFields.retransmission h

/-- A loss moves the recovery point and marks `sndUna` as repaired; the
congestion window is no field of the protocol. -/
theorem onTCPCongestionLoss_twin (cfg : Settings) (reason : Reason) :
    (c₁.onTCPCongestionLoss cfg reason).protocolFields =
      (c₂.onTCPCongestionLoss cfg reason).protocolFields := by
  have hqueue := retransmission_congr h
  unfold onTCPCongestionLoss
  dsimp only
  rw [hqueue]
  split
  · exact h
  · exact congrArg (fun fields : ProtocolFields => { fields with
      retransmission := c₂.send.retransmission
      congestionRecoveryUntil := some c₂.send.retransmission.sndNxt
      fastRetransmitAck := some c₂.send.retransmission.sndUna }) h

/-- A fast retransmission does the same to two queues that are alike. -/
theorem fastRetransmit_twin (cfg : Settings) (hreg₁ : c₁.registered = true)
    (hreg₂ : c₂.registered = true) (turn₁ turn₂ : Turn) :
    Twin c₁ c₂ (c₁.fastRetransmit cfg turn₁) (c₂.fastRetransmit cfg turn₂) := by
  have hqueue := retransmission_congr h
  by_cases hidle : (c₂.send.retransmission.persist || !c₂.send.retransmission.hasOutstanding ||
      c₂.send.retransmission.closed || c₂.send.retransmission.exhausted) = true
  · unfold fastRetransmit RetransmissionQueue.fastRetransmit
    rw [if_pos (hqueue ▸ hidle), if_pos hidle]
    exact .of_fields h rfl rfl
  · have hbusy := Bool.eq_false_iff.mpr hidle
    obtain ⟨segment, hold⟩ : ∃ segment, c₂.send.retransmission.oldest = some segment := by
      cases hsegments : c₂.send.retransmission.segments with
      | nil => simp [RetransmissionQueue.hasOutstanding, hsegments] at hidle
      | cons segment rest => exact ⟨segment, by simp [RetransmissionQueue.oldest, hsegments]⟩
    rw [fastRetransmit_eq cfg turn₁ c₁ (hqueue ▸ hold) (hqueue ▸ hbusy),
      fastRetransmit_eq cfg turn₂ c₂ hold hbusy, hqueue]
    generalize hcleared : { c₂.send.retransmission with
      currentRtoMs := c₂.send.retransmission.initialRtoMs }.clearTimer = q
    have hrestarted : (c₁.withQueue q).protocolFields = (c₂.withQueue q).protocolFields :=
      congrArg (fun fields : ProtocolFields => { fields with retransmission := q }) h
    have hlost := onTCPCongestionLoss_twin hrestarted cfg .fast
    have hresent : Twin c₁ c₂ ((c₁.withQueue q).onRetransmit cfg segment .fast)
        ((c₂.withQueue q).onRetransmit cfg segment .fast) := by
      have hloss : ∀ c : Conn, c.registered = true → (c.withQueue q).onRetransmit cfg segment .fast =
          ((c.withQueue q).onTCPCongestionLoss cfg .fast).resend cfg segment := fun c hreg => by
        unfold onRetransmit
        rw [if_neg (by simp [hreg])]
        rfl
      rw [hloss c₁ hreg₁, hloss c₂ hreg₂]
      exact (Twin.resend cfg hlost segment).rebase (onTCPCongestionLoss_sent cfg _ .fast)
        (onTCPCongestionLoss_sent cfg _ .fast)
    exact hresent.update (congrArg (fun fields : ProtocolFields =>
      { fields with retransmission := fields.retransmission.armTimer }) hresent.fields) rfl rfl

theorem acknowledge_fields {ackNum : Seq} {result : AckResult}
    (hacked : c₁.acknowledge ackNum = .ok (d₁, result)) :
    ∃ d₂, c₂.acknowledge ackNum = .ok (d₂, result) ∧ d₁.protocolFields = d₂.protocolFields := by
  have hqueue := retransmission_congr h
  unfold acknowledge at hacked ⊢
  rw [hqueue] at hacked
  split at hacked
  · cases hacked
  · rename_i q result' _
    cases hacked
    exact ⟨_, rfl, congrArg (fun fields : ProtocolFields => { fields with retransmission := q }) h⟩

/-- A window update depends on the protocol fields alone. -/
theorem updateTCPWindow_fields (sequence ack : Seq) (window : Nat) :
    (c₁.updateTCPWindow sequence ack window).2 = (c₂.updateTCPWindow sequence ack window).2 ∧
      (c₁.updateTCPWindow sequence ack window).1.protocolFields =
        (c₂.updateTCPWindow sequence ack window).1.protocolFields := by
  have hupdate : c₁.send.windowUpdate = c₂.send.windowUpdate :=
    congrArg ProtocolFields.windowUpdate h
  have hwindow : c₁.send.vmWindow = c₂.send.vmWindow := congrArg ProtocolFields.vmWindow h
  have hold : c₁.isOldWindowUpdate sequence ack = c₂.isOldWindowUpdate sequence ack := by
    rw [isOldWindowUpdate, isOldWindowUpdate, hupdate]
  unfold updateTCPWindow
  rw [hold, hwindow]
  split
  · exact ⟨rfl, h⟩
  · exact ⟨rfl, congrArg (fun fields : ProtocolFields =>
      { fields with vmWindow := window, windowUpdate := some (sequence, ack) }) h⟩

theorem retransmitTCPRecoveryHead_twin (cfg : Settings) :
    Twin c₁ c₂ (c₁.retransmitTCPRecoveryHead cfg) (c₂.retransmitTCPRecoveryHead cfg) := by
  have hqueue := retransmission_congr h
  unfold retransmitTCPRecoveryHead
  rw [hqueue]
  split
  · exact .of_fields h rfl rfl
  · refine (Twin.resend cfg ?_ _).rebase rfl rfl
    exact congrArg (fun fields : ProtocolFields =>
      { fields with fastRetransmitAck := some c₂.send.retransmission.sndUna }) h

/-- Whether the oldest segment is repeated depends on the recovery point and on
the payload that was acknowledged. -/
theorem onTCPCongestionAck_twin (cfg : Settings) (ackedDataBytes : Nat) (ackNumber : Seq) :
    Twin c₁ c₂ (c₁.onTCPCongestionAck cfg ackedDataBytes ackNumber)
      (c₂.onTCPCongestionAck cfg ackedDataBytes ackNumber) := by
  have hrecovery : c₁.send.congestionRecoveryUntil = c₂.send.congestionRecoveryUntil :=
    congrArg ProtocolFields.congestionRecoveryUntil h
  unfold onTCPCongestionAck
  by_cases hnone : ackedDataBytes = 0
  · rw [if_pos hnone, if_pos hnone]
    exact .of_fields h rfl rfl
  rw [if_neg hnone, if_neg hnone]
  cases hr : c₂.send.congestionRecoveryUntil with
  | none =>
      rw [hrecovery.trans hr]
      refine .of_fields ?_ rfl rfl
      exact h
  | some recoveryUntil =>
      rw [hrecovery.trans hr]
      dsimp only
      split
      · refine .of_fields ?_ rfl rfl
        exact congrArg (fun fields : ProtocolFields =>
          { fields with congestionRecoveryUntil := none }) h
      · exact retransmitTCPRecoveryHead_twin h cfg

theorem noteAdvancedAck_twin (cfg : Settings) (ackedDataBytes : Nat) (ackNum : Seq) :
    Twin c₁ c₂ (c₁.noteAdvancedAck cfg ackedDataBytes ackNum)
      (c₂.noteAdvancedAck cfg ackedDataBytes ackNum) := by
  have hreset : ({ c₁ with send := { c₁.send with
      dupAckCount := 0
      fastRetransmitAck := none
      vmLastAck := c₁.send.retransmission.sndUna } } : Conn).protocolFields =
      ({ c₂ with send := { c₂.send with
        dupAckCount := 0
        fastRetransmitAck := none
        vmLastAck := c₂.send.retransmission.sndUna } } : Conn).protocolFields :=
    congrArg (fun fields : ProtocolFields =>
      { fields with dupAckCount := 0, fastRetransmitAck := none }) h
  exact (onTCPCongestionAck_twin hreset cfg ackedDataBytes ackNum).rebase rfl rfl

theorem isDuplicateAck_congr (seg : VMSegment) (windowChanged : Bool) :
    c₁.isDuplicateAck seg windowChanged = c₂.isDuplicateAck seg windowChanged := by
  have hwindow : c₁.send.vmWindow = c₂.send.vmWindow := congrArg ProtocolFields.vmWindow h
  rw [isDuplicateAck, isDuplicateAck, hwindow, retransmission_congr h]

/-- The third duplicate acknowledgement in a row calls `fastRetransmit`, unless
its number has been repaired. -/
theorem noteDuplicateAck_twin (cfg : Settings) (hreg₁ : c₁.registered = true)
    (hreg₂ : c₂.registered = true) (turn₁ turn₂ : Turn) (ackNum : Seq) :
    Twin c₁ c₂ (c₁.noteDuplicateAck cfg turn₁ ackNum) (c₂.noteDuplicateAck cfg turn₂ ackNum) := by
  have hcount : c₁.send.dupAckCount = c₂.send.dupAckCount := congrArg ProtocolFields.dupAckCount h
  have hmark : c₁.send.fastRetransmitAck = c₂.send.fastRetransmitAck :=
    congrArg ProtocolFields.fastRetransmitAck h
  have hcounted : ({ c₁ with send := { c₁.send with dupAckCount := c₁.send.dupAckCount + 1 } } :
      Conn).protocolFields = ({ c₂ with send := { c₂.send with
        dupAckCount := c₂.send.dupAckCount + 1 } } : Conn).protocolFields :=
    congrArg (fun fields : ProtocolFields =>
      { fields with dupAckCount := fields.dupAckCount + 1 }) h
  have hreset : ∀ {d₁ d₂ : Conn}, Twin c₁ c₂ d₁ d₂ →
      Twin c₁ c₂ { d₁ with send := { d₁.send with dupAckCount := 0 } }
        { d₂ with send := { d₂.send with dupAckCount := 0 } } := fun htwin =>
    htwin.update (congrArg (fun fields : ProtocolFields => { fields with dupAckCount := 0 })
      htwin.fields) rfl rfl
  unfold noteDuplicateAck
  dsimp only
  by_cases hthird : c₂.send.dupAckCount + 1 = 3
  swap
  · rw [if_neg (hcount ▸ hthird), if_neg hthird]
    exact .of_fields hcounted rfl rfl
  rw [if_pos (hcount ▸ hthird), if_pos hthird]
  by_cases hnew : c₂.send.fastRetransmitAck ≠ some ackNum
  · rw [if_pos (hmark ▸ hnew), if_pos hnew]
    exact hreset ((fastRetransmit_twin hcounted cfg hreg₁ hreg₂ turn₁ turn₂).rebase rfl rfl)
  · rw [if_neg (hmark ▸ hnew), if_neg hnew]
    exact hreset (.of_fields hcounted rfl rfl)

end Fields

theorem acknowledge_registered {ackNum : Seq} {result : AckResult}
    (h : c.acknowledge ackNum = .ok (c', result)) : c'.registered = c.registered := by
  unfold acknowledge at h
  split at h
  · cases h
  · cases h
    rfl

theorem updateTCPWindow_registered (c : Conn) (seg : VMSegment) :
    (c.updateTCPWindow seg.seqNum seg.ackNum seg.window.toNat).1.registered = c.registered := by
  obtain ⟨vmWindow, windowUpdate, he, -⟩ := updateTCPWindow_eq c seg.seqNum seg.ackNum seg.window
  rw [he]

/-- Equal fields are equal once the acknowledgement is noted, and the same has
been sent again. -/
theorem noteAck_twin (h : c₁.protocolFields = c₂.protocolFields) (hreg₁ : c₁.registered = true)
    (hreg₂ : c₂.registered = true) (turn₂ : Turn) {status : AckStatus} {windowChanged : Bool}
    (hok : c₁.noteAck cfg turn₁ seg = .ok (d₁, status, windowChanged)) :
    ∃ d₂, c₂.noteAck cfg turn₂ seg = .ok (d₂, status, windowChanged) ∧ Twin c₁ c₂ d₁ d₂ := by
  unfold noteAck at hok ⊢
  split at hok
  · cases hok
  rename_i a₁ result hacked
  obtain ⟨a₂, hacked₂, hfields⟩ := acknowledge_fields h hacked
  have hsent₁ := (acknowledge_frame hacked).2.2
  have hsent₂ := (acknowledge_frame hacked₂).2.2
  rw [hacked₂]
  dsimp only at hok ⊢
  by_cases hignored : result.status = .future ∨ result.status = .stale
  · rw [if_pos hignored] at hok ⊢
    cases hok
    exact ⟨a₂, rfl, .of_fields hfields hsent₁ hsent₂⟩
  rw [if_neg hignored] at hok ⊢
  obtain ⟨hchanged, hfields'⟩ :=
    updateTCPWindow_fields hfields seg.seqNum seg.ackNum seg.window.toNat
  have hreg₁' := (updateTCPWindow_registered a₁ seg).trans
    ((acknowledge_registered hacked).trans hreg₁)
  have hreg₂' := (updateTCPWindow_registered a₂ seg).trans
    ((acknowledge_registered hacked₂).trans hreg₂)
  have hupdated₁ := (updateTCPWindow_frame a₁ seg.seqNum seg.ackNum seg.window.toNat).2.2.trans
    hsent₁
  have hupdated₂ := (updateTCPWindow_frame a₂ seg.seqNum seg.ackNum seg.window.toNat).2.2.trans
    hsent₂
  cases hok
  refine ⟨_, by rw [hchanged], ?_⟩
  rw [hchanged, isDuplicateAck_congr hfields' seg]
  split
  · exact (noteAdvancedAck_twin hfields' cfg _ _).rebase hupdated₁ hupdated₂
  split
  · exact (noteDuplicateAck_twin hfields' cfg hreg₁' hreg₂' _ _ _).rebase hupdated₁ hupdated₂
  · exact .of_fields hfields' hupdated₁ hupdated₂

/-- What waits to be sent, and what is outstanding, stay as they are. -/
structure Holds (c c' : Conn) : Prop where
  sameStream : c.send.retransmission.SameStream c'.send.retransmission
  persist : c'.send.retransmission.persist = c.send.retransmission.persist
  sendQueue : c'.send.sendQueue = c.send.sendQueue
  finSent : c'.send.finSent = c.send.finSent

theorem Holds.refl (c : Conn) : Holds c c := ⟨.of_segments rfl rfl rfl rfl rfl rfl, rfl, rfl, rfl⟩

theorem Holds.trans {c'' : Conn} (h : Holds c c') (h' : Holds c' c'') : Holds c c'' :=
  ⟨h.sameStream.trans h'.sameStream, h'.persist.trans h.persist, h'.sendQueue.trans h.sendQueue,
    h'.finSent.trans h.finSent⟩

/-- A fast retransmission holds on to everything that is outstanding. -/
theorem fastRetransmit_holds (cfg : Settings) (turn : Turn) (hreg : c.registered = true) :
    Holds c (c.fastRetransmit cfg turn) := by
  have hwake := (fastRetransmit_wake cfg turn hreg).1
  refine ⟨?_, congrArg Wake.persist hwake, congrArg Wake.sendQueue hwake,
    congrArg Wake.finSent hwake⟩
  obtain he | ⟨segment, -, -, -, he⟩ := fastRetransmit_cases cfg turn c
  · rw [he]
    exact (Holds.refl c).sameStream
  · have hcleared : c.send.retransmission.SameStream { c.send.retransmission with
        currentRtoMs := c.send.retransmission.initialRtoMs }.clearTimer :=
      .of_segments rfl rfl rfl rfl rfl rfl
    generalize { c.send.retransmission with
      currentRtoMs := c.send.retransmission.initialRtoMs }.clearTimer = q at he hcleared
    have hresent := (onRetransmit_wake cfg (c := c.withQueue q) hreg segment .fast).2.1
    rw [he, armed, withQueue_retransmission, hresent]
    exact hcleared.armTimer

theorem noteDuplicateAck_holds (cfg : Settings) (turn : Turn) (hreg : c.registered = true)
    (ackNum : Seq) : Holds c (c.noteDuplicateAck cfg turn ackNum) := by
  have hcount : ∀ (c : Conn) (dupAckCount : Nat),
      Holds c { c with send := { c.send with dupAckCount } } := fun _ _ =>
    ⟨.of_segments rfl rfl rfl rfl rfl rfl, rfl, rfl, rfl⟩
  have hcounted := hcount c (c.send.dupAckCount + 1)
  unfold noteDuplicateAck
  dsimp only
  split
  · split
    · exact (hcounted.trans (fastRetransmit_holds cfg turn hreg)).trans (hcount _ 0)
    · exact hcounted.trans (hcount _ 0)
  · exact hcounted

/-- What the acknowledgement part leaves of the sending side: the items that are
not acknowledged, and what waits to be sent. -/
structure Trims (c c' : Conn) : Prop where
  items : c'.send.retransmission.items =
    c.stream.outstanding.drop (c.ackedItems c'.send.retransmission.sndUna)
  acked : c.ackedItems c'.send.retransmission.sndUna ≤ c.stream.outstanding.length
  sndNxt : c'.send.retransmission.sndNxt = c.send.retransmission.sndNxt
  persist : c'.send.retransmission.persist = c.send.retransmission.persist
  sendQueue : c'.send.sendQueue = c.send.sendQueue
  finSent : c'.send.finSent = c.send.finSent

theorem Holds.trims (h : Holds c c') : Trims c c' := by
  have hnone : c.ackedItems c'.send.retransmission.sndUna = 0 := by
    rw [h.sameStream.sndUna]
    exact distance_self _
  refine ⟨?_, hnone ▸ Nat.zero_le _, h.sameStream.sndNxt, h.persist, h.sendQueue, h.finSent⟩
  rw [hnone, List.drop_zero]
  exact h.sameStream.items

/-- The acknowledgement part drops what is acknowledged and keeps the rest of
what is outstanding. -/
theorem noteAck_trims {status : AckStatus} {windowChanged : Bool} (h : c.Sending cfg)
    (hreg : c.registered = true)
    (hok : c.noteAck cfg turn seg = .ok (c', status, windowChanged)) : Trims c c' := by
  unfold noteAck at hok
  obtain ⟨c₁, acked, he, hadv⟩ | ⟨q, status', he, hne, -, hq, -, hpersist, -, -⟩ :=
    acknowledge_spec h seg.ackNum
  · rw [he] at hok
    dsimp only at hok
    rw [if_neg (by simp), if_pos rfl] at hok
    obtain ⟨vmWindow, windowUpdate, hc₂, -⟩ :=
      updateTCPWindow_eq c₁ seg.seqNum seg.ackNum seg.window
    generalize c₁.updateTCPWindow seg.seqNum seg.ackNum seg.window.toNat = updated at hok hc₂
    obtain ⟨c₂, changed⟩ := updated
    dsimp only at hc₂
    cases hok
    obtain ⟨-, -, hqueue, hfin, hretransmission⟩ := noteAdvancedAck_frame cfg c₂ acked seg.ackNum
    obtain ⟨segments, hadvanced⟩ := hadv.queue
    have hc₁ : c₂.send.retransmission = c₁.send.retransmission := by rw [hc₂]
    have huna : c₂.send.retransmission.sndUna = seg.ackNum := by
      rw [hc₁, hadvanced]
      exact RetransmissionQueue.advanceTo_sndUna _ _ _
    constructor
    · rw [hretransmission, huna, hc₁]
      exact congrArg State.outstanding hadv.stream
    · rw [hretransmission, huna]
      exact hadv.covered.2
    · rw [hretransmission, hc₁, hadvanced]
      exact RetransmissionQueue.advanceTo_sndNxt _ _ _
    · rw [hretransmission, hc₁, hadvanced]
      exact RetransmissionQueue.advanceTo_persist _ _ _
    · rw [hqueue, hc₂, hadv.rest]
    · rw [hfin, hc₂, hadv.rest]
  · rw [he] at hok
    dsimp only at hok
    by_cases hignored : status' = .future ∨ status' = .stale
    · rw [if_pos hignored] at hok
      cases hok
      exact Holds.trims ⟨hq, hpersist, rfl, rfl⟩
    rw [if_neg hignored, if_neg hne] at hok
    obtain ⟨vmWindow, windowUpdate, hc₂, -⟩ :=
      updateTCPWindow_eq (c.withQueue q) seg.seqNum seg.ackNum seg.window
    generalize (c.withQueue q).updateTCPWindow seg.seqNum seg.ackNum seg.window.toNat = updated
      at hok hc₂
    obtain ⟨c₂, changed⟩ := updated
    dsimp only at hc₂
    have hupdated : Holds c c₂ := by
      rw [hc₂]
      exact ⟨hq, hpersist, rfl, rfl⟩
    have hreg₂ : c₂.registered = true := by
      rw [hc₂]
      exact hreg
    cases hok
    split
    · exact (hupdated.trans (noteDuplicateAck_holds cfg turn hreg₂ seg.ackNum)).trims
    · exact hupdated.trims

/-- Either the FIN leaves, and the state with it, or neither changes. -/
def FinStep (c c' : Conn) : Prop :=
  c'.send.finSent = c.send.finSent ∧ c'.state = c.state ∨
    c.send.finSent = false ∧ c'.send.finSent = true ∧ c'.state = .finWait

theorem FinStep.trans {c'' : Conn} (h : FinStep c c') (h' : FinStep c' c'') : FinStep c c'' := by
  rcases h with ⟨hfin, hstate⟩ | ⟨hfin, hsent, hstate⟩
  · rcases h' with ⟨hfin', hstate'⟩ | ⟨hfin', hsent'⟩
    · exact .inl ⟨hfin'.trans hfin, hstate'.trans hstate⟩
    · exact .inr ⟨hfin.symm.trans hfin', hsent'⟩
  · rcases h' with ⟨hfin', hstate'⟩ | ⟨hfin', -⟩
    · exact .inr ⟨hfin, hfin'.trans hsent, hstate'.trans hstate⟩
    · exact absurd (hsent.symm.trans hfin') (by decide)

theorem sendTrackedTCP_fin {payload : Bytes} {flags : Flags} {sequence : Option Seq}
    {advance : Bool} (h : c.sendTrackedTCP cfg payload flags sequence advance = .ok c') :
    c'.send.finSent = c.send.finSent ∧ c'.state = c.state := by
  obtain ⟨wires, relaySeq, retransmission, hc⟩ := sendTrackedTCP_changes h
  rw [hc]
  exact ⟨rfl, rfl⟩

theorem finStep_persists (cfg : Settings) : Persists cfg FinStep where
  trans := FinStep.trans
  quiet h := .inl ⟨h.finSent, h.state⟩
  data _ _ h := .inl (sendTrackedTCP_fin h)
  fin hunsent h := .inr ⟨hunsent, sendTrackedTCP_fin h⟩

theorem setPersist_fin (cfg : Settings) (turn : Turn) (hreg : c.registered = true)
    (enabled : Bool) : FinStep c (c.setPersist cfg turn enabled) := by
  obtain ⟨-, he⟩ | ⟨-, -, -, he⟩ | ⟨segment, -, -, -, -, he⟩ :=
    setPersist_cases cfg turn c enabled
  · rw [he]
    exact .inl ⟨rfl, rfl⟩
  · rw [he]
    exact .inl ⟨rfl, rfl⟩
  · rw [he]
    have hwake := (onRetransmit_wake cfg
      (c := c.withQueue (c.send.retransmission.switchPersist enabled)) hreg segment .windowOpen).1
    exact .inl ⟨congrArg Wake.finSent hwake, onRetransmit_state cfg _ segment .windowOpen⟩

theorem drainTCPToVM_fin {rateLimited : Bool} (hreg : c.registered = true)
    (h : c.drainTCPToVM cfg turn rateLimited = .ok c') : FinStep c c' :=
  have hmarked : ({ c with send := { c.send with sending := true } } : Conn).registered = true := hreg
  (finStep_persists cfg).drainTCPToVM (setPersist_fin cfg turn hmarked _) h

/-- The test of the FIN part: the own FIN has left and been acknowledged. -/
def finAcknowledged (c : Conn) : Bool :=
  c.send.finSent && !c.send.retransmission.hasOutstanding

/-- The send loop only adds to what is outstanding, so it acknowledges nothing. -/
theorem Evolves.finAcknowledged (h : c.Sending cfg) (hev : Evolves cfg c c')
    (hnot : c.finAcknowledged = false) : c'.finAcknowledged = false := by
  -- Were the FIN of the VM in, this would be `bothClosed`.
  have hclosed : ∀ d : Conn,
      ({ d with recv := { d.recv with peerFin := true } } : Conn).bothClosed =
        d.finAcknowledged := fun d => by
    rw [bothClosed, Conn.finAcknowledged, Bool.true_and]
  have hbefore : ({ c with recv := { c.recv with peerFin := true } } : Conn).Sending cfg :=
    { h with }
  have hafter : ({ c' with recv := { c'.recv with peerFin := true } } : Conn).Sending cfg :=
    { hev.sending with }
  rw [← hclosed] at hnot ⊢
  exact hbefore.not_bothClosed hafter
    (history_prefix_of_reaches (hev.moves.imp fun _ hrun => hrun.unrestrict))
    (congrArg Frame.acknowledged hev.frame) rfl hnot

theorem finAcknowledged_iff (c : Conn) : c.finAcknowledged = true ↔
    c.send.finSent = true ∧ c.send.retransmission.segments = [] := by
  simp [finAcknowledged, RetransmissionQueue.hasOutstanding]

theorem setPersist_segments (cfg : Settings) (turn : Turn)
    (hnil : c.send.retransmission.segments = []) (enabled : Bool) :
    (c.setPersist cfg turn enabled).send.retransmission.segments = [] ∧
      (c.setPersist cfg turn enabled).send.sendQueue = c.send.sendQueue ∧
      (c.setPersist cfg turn enabled).send.finSent = c.send.finSent ∧
      (c.setPersist cfg turn enabled).registered = c.registered := by
  obtain ⟨-, he⟩ | ⟨-, -, -, he⟩ | ⟨segment, -, hold, -⟩ := setPersist_cases cfg turn c enabled
  · rw [he]
    exact ⟨hnil, rfl, rfl, rfl⟩
  · rw [he]
    refine ⟨?_, rfl, rfl, rfl⟩
    rw [armed, withQueue_retransmission, RetransmissionQueue.armTimer_segments]
    exact hnil
  · simp [RetransmissionQueue.oldest, hnil] at hold

/-- The own FIN has been acknowledged, and nothing is queued behind it. -/
def SaidAll (c : Conn) : Prop := c.finAcknowledged = true ∧ c.send.sendQueue = []

/-- The send loop has nothing to add, and leaves it so. -/
theorem drainTCPToVM_saidAll {rateLimited : Bool} (hreg : c.registered = true) (hsaid : c.SaidAll)
    (h : c.drainTCPToVM cfg turn rateLimited = .ok c') : c'.SaidAll := by
  obtain ⟨hdone, hqueue⟩ := hsaid
  obtain ⟨hfin, hnil⟩ := (finAcknowledged_iff c).mp hdone
  unfold drainTCPToVM at h
  dsimp only at h
  obtain ⟨hnil', hqueue', hfin', hreg'⟩ := setPersist_segments cfg turn
    (c := { c with send := { c.send with sending := true } }) hnil
    ({ c with send := { c.send with sending := true } } : Conn).wantsPersist
  generalize ({ c with send := { c.send with sending := true } } : Conn).setPersist cfg turn
    ({ c with send := { c.send with sending := true } } : Conn).wantsPersist = d
    at h hnil' hqueue' hfin' hreg'
  have hidle : d.stopSending.maybeFin cfg = .ok d.stopSending := by
    rw [maybeFin_eq, maybeSendFin, if_pos]
    simp [stopSending, hfin', hfin]
  unfold drainLoop drainStep at h
  rw [if_neg (by simp [hreg', hreg]), if_pos (hqueue'.trans hqueue), hidle] at h
  cases h
  exact ⟨(finAcknowledged_iff _).mpr ⟨hfin'.trans hfin, hnil'⟩, hqueue'.trans hqueue⟩

/-- What a handler does between the acknowledgement number and the payload. -/
structure Pushes (cfg : Settings) (c c' : Conn) : Prop where
  evolves : Evolves cfg c c'
  sent : Sequences c c'
  adds : ∃ new, Adds c c' new
  fastRetransmitAck : c'.send.fastRetransmitAck = c.send.fastRetransmitAck
  fin : FinStep c c'
  saidAll : c.SaidAll → c'.SaidAll

namespace Pushes

theorem refl (h : c.Sending cfg) : Pushes cfg c c :=
  ⟨.refl h, .refl c, ⟨[], .refl h.tracking⟩, rfl, .inl ⟨rfl, rfl⟩, id⟩

theorem trans {c'' : Conn} (h : Pushes cfg c c') (h' : Pushes cfg c' c'') : Pushes cfg c c'' := by
  obtain ⟨new, hadds⟩ := h.adds
  obtain ⟨new', hadds'⟩ := h'.adds
  exact ⟨h.evolves.trans h'.evolves, h.sent.trans h'.sent, ⟨new ++ new', hadds.trans hadds'⟩,
    h'.fastRetransmitAck.trans h.fastRetransmitAck, h.fin.trans h'.fin,
    fun hsaid => h'.saidAll (h.saidAll hsaid)⟩

/-- Whether the own FIN has been acknowledged stays as it is, unless something
is queued behind it. -/
theorem finAcknowledged (h : Pushes cfg c c') (hs : c.Sending cfg)
    (hbehind : c.send.finSent = true → c.send.sendQueue = []) :
    c'.finAcknowledged = c.finAcknowledged := by
  cases hdone : c.finAcknowledged with
  | false => exact h.evolves.finAcknowledged hs hdone
  | true => exact (h.saidAll ⟨hdone, hbehind ((finAcknowledged_iff c).mp hdone).1⟩).1

end Pushes

theorem resetDup_pushes (h : c.Sending cfg) (windowChanged : Bool) :
    Pushes cfg c (c.resetDup windowChanged) := by
  cases windowChanged with
  | false => exact .refl h
  | true =>
      have hev := resetDup_evolves h true
      refine ⟨hev, .of_sent rfl, ⟨[], ?_⟩, rfl, .inl ⟨rfl, rfl⟩, id⟩
      exact .of_segments hev.sending.tracking rfl rfl rfl rfl .inl
        (List.append_nil c.sent).symm fun _ => rfl

/-- The send loop puts what is new behind what is outstanding. -/
theorem Ready.trySend_pushes (h : Ready cfg c) (hopen : c.state.isOpen = true) (turn : Turn) :
    ∃ c', c.trySend cfg turn = .ok c' ∧ Live cfg c' ∧ Pushes cfg c c' ∧
      c'.send.dupAckCount = c.send.dupAckCount := by
  obtain ⟨c', hok, hlive, hev, -⟩ := h.trySend turn fun hs =>
    absurd hs (not_synSent_of_isOpen hopen)
  have hstay : Pushed c c ∧ Extends c c ∧ FinStep c c ∧ (c.SaidAll → c.SaidAll) :=
    ⟨.refl c, fun htracking => ⟨[], .refl htracking⟩, .inl ⟨rfl, rfl⟩, id⟩
  have hdrain : ∀ {rateLimited}, c.drainTCPToVM cfg turn rateLimited = .ok c' →
      Pushed c c' ∧ Extends c c' ∧ FinStep c c' ∧ (c.SaidAll → c'.SaidAll) := fun hok =>
    ⟨drainTCPToVM_pushed h.sending.tracked hok, drainTCPToVM_extends h.registered hok,
      drainTCPToVM_fin h.registered hok, fun hsaid => drainTCPToVM_saidAll h.registered hsaid hok⟩
  obtain ⟨hpushed, hextends, hfin, hsaid⟩ :
      Pushed c c' ∧ Extends c c' ∧ FinStep c c' ∧ (c.SaidAll → c'.SaidAll) := by
    have hsend := hok
    unfold Conn.trySend trySendToVM trySendReverseToVM at hsend
    split at hsend <;> split at hsend
    · cases hsend
      exact hstay
    · exact hdrain hsend
    · cases hsend
      exact hstay
    · exact hdrain hsend
  exact ⟨c', hok, hlive, ⟨hev, hpushed.sent, hextends h.sending.tracking,
    hpushed.fastRetransmitAck, hfin, hsaid⟩, hpushed.dupAckCount⟩

end Conn

end RootlessRelay
