import RootlessRelay.Tcp.FlightBound
import RootlessRelay.Tcp.Recovery
import RootlessRelay.Tcp.RetransmissionTrace

/-!
# A VM that has fallen silent

While no segment of the VM arrives, the window stays as it is, and what has been
sent stays outstanding. The retransmission timer is then the only callback that
counts attempts, and `setPersist` the only one that starts the count again:
once, if the mode of the queue does not fit the window yet. `patience` is what
is left, and every timer that goes unanswered takes one from it.

A timer goes unanswered when it is the current one and the transport takes the
probe it may send. A probe that the transport refuses is not counted by the
queue, so a run of such probes has no bound; the result counts the others, and
bounds their number for as long as the connection is held.
-/

namespace RootlessRelay

open SequenceSpace Transition SendStream

namespace RetransmissionQueue

variable {q r s : RetransmissionQueue} {wanted : Bool}

/-- The attempts that are left, in a queue that ought to be in persist mode or
not. A queue in the wrong mode will start its count again once. -/
def patience (q : RetransmissionQueue) (wanted : Bool) : Nat :=
  (q.maxRetransmissions - q.timeoutRetransmissions) +
    if q.persist = wanted then 0 else q.maxRetransmissions + 1

/-- What the callbacks that do not count attempts make of the queue: its mode
and count stay, or it goes over to the mode that is wanted. -/
structure Waits (wanted : Bool) (q r : RetransmissionQueue) : Prop where
  outstanding : q.segments ≠ [] → r.segments ≠ []
  most : r.maxRetransmissions = q.maxRetransmissions
  mode : r.persist = q.persist ∧ r.timeoutRetransmissions = q.timeoutRetransmissions ∨
    q.persist ≠ wanted ∧ r.persist = wanted

namespace Waits

theorem refl (q : RetransmissionQueue) : Waits wanted q q := ⟨fun h => h, rfl, .inl ⟨rfl, rfl⟩⟩

theorem trans (h : Waits wanted q r) (h' : Waits wanted r s) : Waits wanted q s := by
  refine ⟨fun hq => h'.outstanding (h.outstanding hq), h'.most.trans h.most, ?_⟩
  rcases h.mode with ⟨hpersist, hcount⟩ | ⟨hother, hwanted⟩
  · rw [← hpersist, ← hcount]
    exact h'.mode
  · rcases h'.mode with ⟨hpersist', -⟩ | ⟨hother', -⟩
    · exact .inr ⟨hother, hpersist'.trans hwanted⟩
    · exact absurd hwanted hother'

theorem of_budget (hbudget : r.budget = q.budget)
    (houtstanding : q.segments ≠ [] → r.segments ≠ []) : Waits wanted q r :=
  ⟨houtstanding, congrArg Budget.maxRetransmissions hbudget,
    .inl ⟨congrArg Budget.persist hbudget, congrArg Budget.timeoutRetransmissions hbudget⟩⟩

theorem patience_le (h : Waits wanted q r) : r.patience wanted ≤ q.patience wanted := by
  unfold patience
  rw [h.most]
  rcases h.mode with ⟨hpersist, hcount⟩ | ⟨hother, hwanted⟩
  · rw [hpersist, hcount]
  · rw [if_pos hwanted, if_neg hother]
    omega

end Waits

theorem track_segments_ne_nil {sent : SentSegment} {added : Bool}
    (htrack : q.track sent = .ok (r, added)) (hq : q.segments ≠ []) : r.segments ≠ [] := by
  obtain ⟨-, he⟩ | ⟨-, -, -, he⟩ | ⟨-, -, -, -, he⟩ | ⟨-, -, -, -, he⟩ := track_cases q sent
  · rw [he] at htrack
    cases htrack
  · rw [he] at htrack
    cases htrack
    exact hq
  · rw [he] at htrack
    cases htrack
  · rw [he, if_neg fun hnil => hq hnil.1] at htrack
    cases htrack
    exact List.append_ne_nil_of_right_ne_nil _ (List.cons_ne_nil _ _)

theorem Reentrant.segments_ne_nil (h : q.Reentrant r) (hopen : r.closed = false)
    (hq : q.segments ≠ []) : r.segments ≠ [] := by
  induction h with
  | refl => exact hq
  | @track r r' sent added _ htrack ih =>
      refine track_segments_ne_nil htrack (ih ?_)
      exact (congrArg Budget.closed (track_budget htrack)).symm.trans hopen
  | close => exact absurd (hopen.symm.trans (close_closed _)) Bool.false_ne_true

/-- As long as the queue stays open, tracking changes nothing that giving up
depends on. -/
theorem Reentrant.waits (h : q.Reentrant r) (hopen : r.closed = false) : Waits wanted q r :=
  .of_budget (h.budget.same hopen) (h.segments_ne_nil hopen)

theorem Reentrant.open_of_open (h : q.Reentrant r) (hopen : r.closed = false) :
    q.closed = false :=
  (congrArg Budget.closed (h.budget.same hopen)).symm.trans hopen

theorem Reentrant.trans (h : q.Reentrant r) (h' : r.Reentrant s) : q.Reentrant s := by
  induction h' with
  | refl => exact h
  | track _ htrack ih => exact .track ih htrack
  | close _ ih => exact .close ih

end RetransmissionQueue

namespace Conn

open RetransmissionQueue

variable {cfg : Settings} {turn : Turn} {c c' : Conn}

theorem sendFin_reentrant (h : c.sendFin cfg = .ok c') :
    c.send.retransmission.Reentrant c'.send.retransmission := by
  have hsend := sendTrackedTCP_reentrant cfg c.markFin [] { fin := true, ack := true } none true
  unfold sendFin at h
  rw [h] at hsend
  exact hsend

theorem maybeFin_reentrant (h : c.maybeFin cfg = .ok c') :
    c.send.retransmission.Reentrant c'.send.retransmission := by
  rw [maybeFin_eq, maybeSendFin] at h
  split at h
  · cases h
    exact .refl _
  · dsimp only at h
    rw [← isTCPCongestionRecoveryActive_queue c]
    split at h
    · cases h
      exact .refl _
    · exact sendFin_reentrant h

theorem sendQueued_reentrant {toSend : Nat} (h : c.sendQueued cfg toSend = .ok c') :
    c.send.retransmission.Reentrant c'.send.retransmission := by
  unfold sendQueued at h
  split at h
  · cases h
  · rename_i chunk queue _
    have hsend := sendTrackedTCP_reentrant cfg (c.withSendQueue queue) chunk
      { ack := true, psh := true } none true
    split at h
    · cases h
    · rename_i c₁ hok
      cases h
      rw [hok] at hsend
      exact hsend

theorem ok_of_map {outcome : Outcome Conn} {goesOn : Bool}
    (h : (outcome.map fun c => (c, false)) = .ok (c', goesOn)) : outcome = .ok c' := by
  cases outcome with
  | error thrown => cases h
  | ok c₁ => cases h; rfl

/-- Sending from the limiter on reaches the queue by tracking alone. -/
theorem sendStep_reentrant {rateLimited goesOn : Bool} {cooperativeSegments available toSend : Nat}
    (h : c.sendStep cfg turn rateLimited cooperativeSegments available toSend = .ok (c', goesOn)) :
    c.send.retransmission.Reentrant c'.send.retransmission := by
  have hasked : (c.tryConsume turn rateLimited toSend).1.send = c.send := by
    unfold tryConsume
    split <;> rfl
  rw [← hasked]
  unfold sendStep at h
  dsimp only at h
  split at h
  · cases h
    exact .refl _
  split at h
  · cases h
  rename_i c₁ hok
  refine (sendQueued_reentrant hok).trans ?_
  split at h
  · cases h
    exact .refl _
  split at h
  · have hfin := maybeFin_reentrant (ok_of_map h)
    exact hfin
  split at h <;> cases h <;> exact .refl _

/-- So does an iteration of the send loop. -/
theorem drainStep_reentrant {rateLimited goesOn : Bool} {cooperativeSegments : Nat}
    (h : c.drainStep cfg turn rateLimited cooperativeSegments = .ok (c', goesOn)) :
    c.send.retransmission.Reentrant c'.send.retransmission := by
  unfold drainStep at h
  split at h
  · cases h
    exact .refl _
  split at h
  · have hfin := maybeFin_reentrant (ok_of_map h)
    exact hfin
  split at h
  · cases h
    exact .refl _
  dsimp only at h
  generalize (if c.isTCPCongestionRecoveryActive.2 = true then 0 else _) = available at h
  rw [← isTCPCongestionRecoveryActive_queue c]
  split at h
  · cases h
    exact .refl _
  · exact sendStep_reentrant h

theorem drainLoop_reentrant {rateLimited : Bool} {fuel cooperativeSegments : Nat}
    (h : drainLoop cfg turn rateLimited fuel cooperativeSegments c = .ok c') :
    c.send.retransmission.Reentrant c'.send.retransmission := by
  induction fuel generalizing c cooperativeSegments with
  | zero => cases h
  | succ fuel ih =>
      unfold drainLoop at h
      split at h
      · cases h
      · rename_i hok
        cases h
        exact drainStep_reentrant hok
      · rename_i hok
        exact (drainStep_reentrant hok).trans (ih h)

/-- Switching persist mode starts the count again, if it switches anything. -/
theorem setPersist_waits (enabled : Bool)
    (hopen : (c.setPersist cfg turn enabled).send.retransmission.closed = false) :
    Waits enabled c.send.retransmission (c.setPersist cfg turn enabled).send.retransmission := by
  by_cases hsame : c.send.retransmission.persist = enabled
  · rw [setPersist_same cfg turn hsame]
    exact .refl _
  have hswitched : Waits enabled c.send.retransmission
      (c.send.retransmission.switchPersist enabled) := ⟨fun h => h, rfl, .inr ⟨hsame, rfl⟩⟩
  obtain ⟨-, he⟩ | ⟨-, -, -, he⟩ | ⟨segment, -, -, -, -, he⟩ := setPersist_cases cfg turn c enabled
  · rw [he]
    exact .refl _
  · rw [he]
    exact hswitched.trans (.of_budget (armTimer_budget _) fun h => by
      rw [armed, withQueue_retransmission, armTimer_segments]
      exact h)
  · rw [he] at hopen ⊢
    have hresent := onRetransmit_reentrant cfg (c.withQueue
      (c.send.retransmission.switchPersist enabled)) segment .windowOpen
    refine hswitched.trans ((hresent.waits ?_).trans (.of_budget (armTimer_budget _) fun h => ?_))
    · exact (congrArg Budget.closed (armTimer_budget _)).symm.trans hopen
    · rw [armed, withQueue_retransmission, armTimer_segments]
      exact h

/-- With something outstanding, `drainTCPToVM` wants persist mode if the window
is closed. -/
theorem wantsPersist_outstanding (hout : c.send.retransmission.segments ≠ []) :
    c.wantsPersist = decide (c.send.vmWindow = 0) := by
  have houtstanding : c.send.retransmission.hasOutstanding = true := by
    cases hsegments : c.send.retransmission.segments with
    | nil => exact absurd hsegments hout
    | cons => simp [RetransmissionQueue.hasOutstanding, hsegments]
  rw [wantsPersist, houtstanding, Bool.true_or, Bool.true_or, Bool.and_true]

theorem drainTCPToVM_waits {rateLimited : Bool} (h : c.drainTCPToVM cfg turn rateLimited = .ok c')
    (hopen : c'.send.retransmission.closed = false)
    (hout : c.send.retransmission.segments ≠ []) :
    Waits (decide (c.send.vmWindow = 0)) c.send.retransmission c'.send.retransmission := by
  have hwants := wantsPersist_outstanding (c := { c with send := { c.send with sending := true } })
    hout
  unfold drainTCPToVM at h
  dsimp only at h
  rw [hwants] at h
  have hloop := drainLoop_reentrant h
  exact (setPersist_waits _ (hloop.open_of_open hopen)).trans (hloop.waits hopen)

theorem trySend_waits (h : c.trySend cfg turn = .ok c')
    (hopen : c'.send.retransmission.closed = false)
    (hout : c.send.retransmission.segments ≠ []) :
    Waits (decide (c.send.vmWindow = 0)) c.send.retransmission c'.send.retransmission := by
  unfold trySend trySendToVM trySendReverseToVM at h
  cases hdir : c.direction <;> rw [hdir] at h <;> dsimp only at h <;> split at h
  · cases h
    exact .refl _
  · exact drainTCPToVM_waits h hopen hout
  · cases h
    exact .refl _
  · exact drainTCPToVM_waits h hopen hout

/-- The callback of the current timer runs, and the transport takes the probe it
may send. -/
def Unanswered (c : Conn) : Turn × Event → Prop
  | (turn, .retransmissionTimer generation) =>
      generation = c.send.retransmission.timerGeneration ∧
        (c.send.retransmission.persist = true → turn.bufferedAmount c.sent.length ≤ 32768)
  | _ => False

instance (c : Conn) : (label : Turn × Event) → Decidable (c.Unanswered label)
  | (turn, .retransmissionTimer generation) =>
    inferInstanceAs (Decidable (generation = c.send.retransmission.timerGeneration ∧
      (c.send.retransmission.persist = true → turn.bufferedAmount c.sent.length ≤ 32768)))
  | (_, .segment _) | (_, .sourceData _) | (_, .sourceEnd) | (_, .localClose) |
    (_, .endpointError) | (_, .sinkDrain) | (_, .sinkEnd) | (_, .pacerTimer) | (_, .ackTimer) |
    (_, .idleTimer) | (_, .removalTimer) | (_, .rateRetry) | (_, .immediate) | (_, .staleResume) |
    (_, .transportFlush) | (_, .otherTraffic _) => inferInstanceAs (Decidable False)

/-- The timers in a run of callbacks that go unanswered. -/
def unanswered (cfg : Settings) (c : Conn) : List (Turn × Event) → Nat
  | [] => 0
  | label :: rest =>
      (if c.Unanswered label then 1 else 0) +
        match c.handle cfg label.1 label.2 with
        | .ok c => c.unanswered cfg rest
        | .error _ => 0

/-- What is left of the attempts, for the window that the VM has advertised. -/
def patience (c : Conn) : Nat := c.send.retransmission.patience (decide (c.send.vmWindow = 0))

/-- A probe is refused only because the WebSocket is backed up. -/
theorem refused_backlogged {segment : Option Segment}
    (h : (c.onPersistProbe cfg turn segment).2 = .refused) :
    32768 < turn.bufferedAmount c.sent.length := by
  unfold onPersistProbe at h
  split at h
  · cases h
  split at h
  · assumption
  split at h
  · cases h
  split at h
  · split at h
    · cases h
    · split at h <;> cases h
  split at h
  · split at h <;> cases h
  · cases h

/-- What a timer that goes off does to the queue, if it does not give up:
`attempts` more have been counted. -/
structure Tried (attempts : Nat) (q r : RetransmissionQueue) : Prop where
  outstanding : r.segments ≠ []
  most : r.maxRetransmissions = q.maxRetransmissions
  persist : r.persist = q.persist
  count : r.timeoutRetransmissions = q.timeoutRetransmissions + attempts
  left : q.timeoutRetransmissions < q.maxRetransmissions

theorem Tried.patience_le {q r : RetransmissionQueue} {attempts : Nat} (h : Tried attempts q r)
    (wanted : Bool) (hattempts : attempts ≤ 1) :
    attempts + r.patience wanted ≤ q.patience wanted := by
  have hleft := h.left
  unfold RetransmissionQueue.patience
  rw [h.most, h.persist, h.count]
  omega

theorem Tried.of_budget {q r s : RetransmissionQueue} {attempts : Nat}
    (hbudget : r.budget = { s.budget with currentRtoMs := r.currentRtoMs })
    (houtstanding : r.segments ≠ []) (hmost : s.maxRetransmissions = q.maxRetransmissions)
    (hpersist : s.persist = q.persist)
    (hcount : s.timeoutRetransmissions = q.timeoutRetransmissions + attempts)
    (hleft : q.timeoutRetransmissions < q.maxRetransmissions) : Tried attempts q r :=
  ⟨houtstanding, (congrArg Budget.maxRetransmissions hbudget).trans hmost,
    (congrArg Budget.persist hbudget).trans hpersist,
    (congrArg Budget.timeoutRetransmissions hbudget).trans hcount, hleft⟩

theorem backOff_budget (q : RetransmissionQueue) :
    q.backOff.budget = { q.budget with currentRtoMs := q.backOff.currentRtoMs } := by
  unfold backOff armTimer
  split <;> rfl

/-- A probe counts as an attempt, unless the transport has not taken it. -/
theorem probe_tried (hopen : (c.probe cfg turn).send.retransmission.closed = false)
    (hreg : (c.probe cfg turn).registered = true)
    (houtstanding : c.send.retransmission.segments ≠ [])
    (hleft : c.send.retransmission.timeoutRetransmissions <
      c.send.retransmission.maxRetransmissions) :
    Tried 1 c.send.retransmission (c.probe cfg turn).send.retransmission ∨
      32768 < turn.bufferedAmount c.sent.length ∧
        Tried 0 c.send.retransmission (c.probe cfg turn).send.retransmission := by
  have hasked := onPersistProbe_reentrant cfg turn
    (c.withQueue c.send.retransmission.countTimeout) c.send.retransmission.oldest
  have hrefused : ((c.withQueue c.send.retransmission.countTimeout).onPersistProbe cfg turn
      c.send.retransmission.oldest).2 = .refused → 32768 < turn.bufferedAmount c.sent.length :=
    refused_backlogged
  unfold probe at hopen hreg ⊢
  generalize (c.withQueue c.send.retransmission.countTimeout).onPersistProbe cfg turn
    c.send.retransmission.oldest = result at hasked hrefused hopen hreg ⊢
  obtain ⟨c₁, answer⟩ := result
  have hclosed : ∀ q : RetransmissionQueue, q.clearTimer.backOff.closed = q.closed := fun q =>
    congrArg Budget.closed (backOff_budget q.clearTimer)
  cases answer with
  | returned =>
      have hstill := (hclosed _).symm.trans hopen
      have hsame := hasked.budget.same hstill
      refine .inl (.of_budget (backOff_budget _) ?_ (congrArg Budget.maxRetransmissions hsame)
        (congrArg Budget.persist hsame) (congrArg Budget.timeoutRetransmissions hsame) hleft)
      exact (armTimer_segments _).trans_ne (hasked.segments_ne_nil hstill houtstanding)
  | refused =>
      have hstill := (hclosed _).symm.trans hopen
      have hsame := hasked.budget.same hstill
      refine .inr ⟨hrefused rfl, .of_budget (backOff_budget _) ?_
        (congrArg Budget.maxRetransmissions hsame) (congrArg Budget.persist hsame)
        (congrArg (fun budget : Budget => budget.timeoutRetransmissions - 1) hsame) hleft⟩
      exact (armTimer_segments _).trans_ne (hasked.segments_ne_nil hstill houtstanding)
  | threw =>
      have hgone := (giveUp_spec cfg turn c₁).registered
      exact absurd (hgone.symm.trans hreg) Bool.false_ne_true

/-- A retransmission counts as an attempt. -/
theorem retransmitOldest_tried {segment : Segment}
    (hopen : (c.retransmitOldest cfg segment).send.retransmission.closed = false)
    (houtstanding : c.send.retransmission.segments ≠ [])
    (hleft : c.send.retransmission.timeoutRetransmissions <
      c.send.retransmission.maxRetransmissions) :
    Tried 1 c.send.retransmission (c.retransmitOldest cfg segment).send.retransmission := by
  have hresent := onRetransmit_reentrant cfg (c.withQueue { c.send.retransmission.countTimeout with
    segments := countRetransmission c.send.retransmission.segments })
    { segment with retransmissions := segment.retransmissions + 1 } .timeout
  have hstill := (congrArg Budget.closed (backOff_budget _)).symm.trans hopen
  have hsame := hresent.budget.same hstill
  refine .of_budget (backOff_budget _) ?_ (congrArg Budget.maxRetransmissions hsame)
    (congrArg Budget.persist hsame) (congrArg Budget.timeoutRetransmissions hsame) hleft
  refine (armTimer_segments _).trans_ne (hresent.segments_ne_nil hstill ?_)
  cases hsegments : c.send.retransmission.segments with
  | nil => exact absurd hsegments houtstanding
  | cons => exact List.cons_ne_nil _ _

/-- A timeout that does not give up has counted one more attempt, if the
transport took what it sent. -/
theorem onTimeout_tried (hopen : (c.onTimeout cfg turn).send.retransmission.closed = false)
    (hreg : (c.onTimeout cfg turn).registered = true)
    (houtstanding : c.send.retransmission.segments ≠ []) :
    Tried 1 c.send.retransmission (c.onTimeout cfg turn).send.retransmission ∨
      c.send.retransmission.persist = true ∧ 32768 < turn.bufferedAmount c.sent.length ∧
        Tried 0 c.send.retransmission (c.onTimeout cfg turn).send.retransmission := by
  have hover : (c.giveUp cfg turn).registered ≠ true := fun hgone =>
    Bool.false_ne_true ((giveUp_spec cfg turn c).registered.symm.trans hgone)
  unfold onTimeout at hopen hreg ⊢
  dsimp only at hopen hreg ⊢
  by_cases hpersist : c.send.retransmission.persist = true
  · rw [if_pos hpersist] at hopen hreg ⊢
    split at hopen
    · rename_i hspent
      rw [if_pos hspent] at hreg
      exact absurd hreg hover
    · rename_i hspent
      rw [if_neg hspent] at hreg ⊢
      rcases probe_tried hopen hreg houtstanding (Nat.lt_of_not_ge hspent) with h | ⟨hbacklog, h⟩
      · exact .inl h
      · exact .inr ⟨hpersist, hbacklog, h⟩
  · rw [if_neg hpersist] at hopen hreg ⊢
    obtain ⟨segment, rest, hsegments⟩ := List.exists_cons_of_ne_nil houtstanding
    have hold : c.send.retransmission.oldest = some segment := by
      rw [oldest, hsegments, List.head?_cons]
    rw [hold] at hopen hreg ⊢
    dsimp only at hopen hreg ⊢
    split at hopen
    · rename_i hspent
      rw [if_pos hspent] at hreg
      exact absurd hreg hover
    · rename_i hspent
      rw [if_neg hspent]
      exact .inl (retransmitOldest_tried hopen houtstanding (Nat.lt_of_not_ge hspent))

/-- The callback is none that the VM causes: no segment of it arrives. Timers,
the endpoint and the WebSocket may do what they like. -/
def Unheard (_ : Conn) (label : Turn × Event) : Prop := ¬Brings (fun _ => True) label.2

/-- A callback that brings nothing from the VM leaves the connection given up,
or with something outstanding and with less patience if it was a timer that went
unanswered. -/
structure Endures (cfg : Settings) (c : Conn) (label : Turn × Event) (c' : Conn) : Prop where
  live : Live cfg c'
  outstanding : c'.send.retransmission.segments ≠ []
  patience : (if c.Unanswered label then 1 else 0) + c'.patience ≤ c.patience

theorem Waits.endures {label : Turn × Event} (hlive : Live cfg c')
    (hwaits : Waits (decide (c.send.vmWindow = 0)) c.send.retransmission c'.send.retransmission)
    (hwindow : c'.send.vmWindow = c.send.vmWindow)
    (hout : c.send.retransmission.segments ≠ []) (hanswered : ¬c.Unanswered label) :
    Endures cfg c label c' := by
  refine ⟨hlive, hwaits.outstanding hout, ?_⟩
  rw [if_neg hanswered, Nat.zero_add, Conn.patience, hwindow]
  exact hwaits.patience_le

/-- The current timer takes one from the patience, or gives the connection up. -/
theorem Live.endures_timer (h : Live cfg c) {generation : Nat}
    (hlive : Live cfg (c.fireRetransmissionTimer cfg turn generation))
    (hwindow : (c.fireRetransmissionTimer cfg turn generation).send.vmWindow = c.send.vmWindow)
    (hout : c.send.retransmission.segments ≠ []) :
    Endures cfg c (turn, .retransmissionTimer generation)
      (c.fireRetransmissionTimer cfg turn generation) := by
  by_cases hcurrent : generation = c.send.retransmission.timerGeneration
  · subst hcurrent
    have hopen := hlive.sending.opened
    have hreg := hlive.registered
    have hfires := fireRetransmissionTimer_live cfg turn h.sending.opened h.sending.live
    rw [hfires] at hopen hreg hlive hwindow ⊢
    have hpatience : ∀ {attempts : Nat}, attempts ≤ 1 → Tried attempts
        (c.timerStarted c.send.retransmission.timerGeneration).send.retransmission
        ((c.timerStarted c.send.retransmission.timerGeneration).onTimeout cfg
          turn).send.retransmission → attempts +
        ((c.timerStarted c.send.retransmission.timerGeneration).onTimeout cfg turn).patience ≤
          c.patience := fun hattempts htried => by
      rw [Conn.patience, hwindow]
      exact htried.patience_le _ hattempts
    rcases onTimeout_tried hopen hreg hout with htried | ⟨hpersist, hbacklog, htried⟩
    · refine ⟨hlive, htried.outstanding, ?_⟩
      refine Nat.le_trans (Nat.add_le_add_right ?_ _) (hpatience (Nat.le_refl 1) htried)
      split <;> decide
    · refine ⟨hlive, htried.outstanding, ?_⟩
      rw [if_neg fun hunanswered => Nat.not_le_of_gt hbacklog (hunanswered.2 hpersist)]
      exact hpatience (Nat.zero_le 1) htried
  · have hsame := fireRetransmissionTimer_superseded cfg turn (c := c) (.inl hcurrent)
    rw [hsame] at hlive ⊢
    exact Waits.endures hlive (.of_budget rfl fun hq => hq) rfl hout fun hun => hcurrent hun.1

/-- The step lemma: without the VM, a callback leaves the connection given up or
enduring. -/
theorem Live.endures (h : Live cfg c) {label : Turn × Event} (hstep : Step cfg c label c')
    (hunheard : c.Unheard label) (hout : c.send.retransmission.segments ≠ []) :
    c'.registered = false ∨ Endures cfg c label c' := by
  obtain ⟨turn, event⟩ := label
  obtain ⟨⟨-, hcan⟩, hok⟩ := hstep
  have hother : ∀ seg, event ≠ .segment seg := fun seg heq => hunheard (heq ▸ trivial)
  obtain ⟨c₁, hok₁, hcalled⟩ := h.calledBack (fun _ _ => True) turn hcan (fun _ _ _ => trivial)
    (fun _ _ _ => trivial) hother
  obtain rfl := Except.ok.inj (hok.symm.trans hok₁)
  refine hcalled.outcome.imp_right fun hgoesOn => ?_
  have hlive := hgoesOn.1
  have hpassive : c'.send = c.send → ¬c.Unanswered (turn, event) →
      Endures cfg c (turn, event) c' := fun hsend hanswered =>
    Waits.endures hlive (hsend ▸ .refl _) hcalled.window hout hanswered
  by_cases hdrains : Drains event
  · have hdrained : ∃ c₂, c.handle cfg turn event = c₂.trySend cfg turn ∧ Ready cfg c₂ ∧
        Prepared c c₂ ∧ Moves (fun _ _ => True) c c₂ :=
      h.drains turn hcan (fun _ _ _ => trivial) (fun _ _ _ => trivial) hdrains
    obtain ⟨c₂, hhandle, -, hprepared, -⟩ := hdrained
    have hwaits := trySend_waits (hhandle.symm.trans hok) hlive.sending.opened
      (hprepared.retransmission ▸ hout)
    rw [hprepared.retransmission, hprepared.vmWindow] at hwaits
    refine Waits.endures hlive hwaits hcalled.window hout fun hunanswered => ?_
    cases event with
    | retransmissionTimer generation => exact hdrains
    | _ => exact hunanswered
  cases event with
  | segment seg => exact absurd rfl (hother seg)
  | retransmissionTimer generation =>
      obtain rfl := Except.ok.inj hok
      exact h.endures_timer hlive hcalled.window hout
  | endpointError =>
      obtain rfl := Except.ok.inj hok
      exact absurd ((abort_givenUp cfg turn c true).registered.symm.trans hlive.registered)
        Bool.false_ne_true
  | idleTimer =>
      obtain rfl := Except.ok.inj hok
      have hover := abort_givenUp cfg turn { c with idleTimer := false } true
      exact absurd (hover.registered.symm.trans hlive.registered) Bool.false_ne_true
  | removalTimer =>
      obtain rfl := Except.ok.inj hok
      exact absurd hlive.registered.symm Bool.false_ne_true.symm
  | sinkDrain =>
      obtain rfl := Except.ok.inj hok
      exact hpassive (onTCPReceiveDrain_passive cfg c).send fun hun => hun
  | ackTimer =>
      obtain rfl := Except.ok.inj hok
      exact hpassive (fireAckTimer_passive cfg c).send fun hun => hun
  | sinkEnd =>
      obtain rfl := Except.ok.inj hok
      exact hpassive rfl fun hun => hun
  | otherTraffic rateLimiter =>
      obtain rfl := Except.ok.inj hok
      exact hpassive rfl fun hun => hun
  | transportFlush =>
      obtain rfl := Except.ok.inj hok
      exact Waits.endures hlive (.refl _) hcalled.window hout fun hun => hun
  | _ => exact absurd trivial hdrains

theorem unanswered_append {labels : List (Turn × Event)} (hrun : Run (Step cfg) c labels c')
    (rest : List (Turn × Event)) :
    c.unanswered cfg (labels ++ rest) = c.unanswered cfg labels + c'.unanswered cfg rest := by
  induction hrun generalizing rest with
  | nil => exact (Nat.zero_add _).symm
  | @snoc c₁ c₂ labels label _ hlast ih =>
      have hnext : ∀ rest, c₁.unanswered cfg (label :: rest) =
          (if c₁.Unanswered label then 1 else 0) + c₂.unanswered cfg rest := fun rest => by
        rw [unanswered, hlast.2]
      rw [List.append_assoc, List.singleton_append, ih, ih, hnext, hnext, ← Nat.add_assoc,
        unanswered, Nat.add_zero]

/-- The run lemma: as many timers go unanswered as patience was taken. -/
theorem Live.unanswered_le (h : Live cfg c) (hout : c.send.retransmission.segments ≠ [])
    {labels : List (Turn × Event)} (hrun : Run (Restrict (Step cfg) Unheard) c labels c')
    (hreg : c'.registered = true) :
    Live cfg c' ∧ c'.send.retransmission.segments ≠ [] ∧
      c.unanswered cfg labels + c'.patience ≤ c.patience := by
  induction hrun with
  | nil => exact ⟨h, hout, Nat.le_of_eq (Nat.zero_add _)⟩
  | @snoc c₁ c₂ labels label hrun hlast ih =>
      obtain ⟨hlive, hout₁, hle⟩ := ih hlast.2.1.1
      have hendures := (hlive.endures hlast.2 hlast.1 hout₁).resolve_left fun hgone =>
        Bool.false_ne_true (hgone.symm.trans hreg)
      have hone : c₁.unanswered cfg [label] = if c₁.Unanswered label then 1 else 0 := by
        rw [unanswered, hlast.2.2]
        rfl
      have hstep := hendures.patience
      rw [unanswered_append hrun.unrestrict, hone]
      exact ⟨hendures.live, hendures.outstanding, by omega⟩

/-- Whatever the endpoint and the transport do, a VM that has stopped answering
is given up: while something is outstanding the timer is set, and it goes off
unanswered no more often than there are attempts left, and once more through all
of them if the window it has advertised last has still to switch persist mode. -/
theorem unheard_given_up (h : Reachable cfg c) (hcurrent : c.Current)
    (hout : c.send.retransmission.segments ≠ []) {labels : List (Turn × Event)}
    (hrun : Run (Restrict (Step cfg) Unheard) c labels c') (hreg : c'.registered = true) :
    c'.send.retransmission.timer.isSome = true ∧
      c.unanswered cfg labels ≤
        (c.send.retransmission.maxRetransmissions -
          c.send.retransmission.timeoutRetransmissions) +
        if c.send.retransmission.persist = decide (c.send.vmWindow = 0) then 0
        else c.send.retransmission.maxRetransmissions + 1 := by
  obtain ⟨hlive, hout', hle⟩ := (h.live hcurrent).unanswered_le hout hrun hreg
  refine ⟨?_, Nat.le_trans (Nat.le_add_right _ _) hle⟩
  exact hlive.timer.mpr ⟨hlive.sending.opened, hlive.sending.live, .inl hout'⟩

/-- The SYN of the relay is repeated three times without an answer. -/
def unheardSyn : List (Turn × Event) :=
  [({}, .retransmissionTimer 1), ({}, .retransmissionTimer 2), ({}, .retransmissionTimer 3)]

theorem unheard_given_up_syn : ∃ c : Conn, exampleReverse.unanswered {} unheardSyn = 3 ∧
    c.send.retransmission.timer.isSome = true ∧ exampleReverse.unanswered {} unheardSyn ≤ 4 := by
  obtain ⟨c, hrun, hreg⟩ := exists_restricted_run {} (fun _ _ => True) exampleReverse unheardSyn
    (fun c => c.registered) (by decide)
  have hunheard : Run (Restrict (Step {}) Unheard) exampleReverse unheardSyn c :=
    hrun.unrestrict.restrict fun label hmem c => by
      simp only [unheardSyn, List.mem_cons, List.not_mem_nil, or_false] at hmem
      obtain rfl | rfl | rfl := hmem <;> exact not_false
  obtain ⟨htimer, hle⟩ := unheard_given_up ⟨exampleReverse, opened_exampleReverse, .refl _⟩
    ⟨rfl, by decide⟩ (by decide) hunheard hreg
  exact ⟨c, by decide, htimer, hle⟩

end Conn

end RootlessRelay
