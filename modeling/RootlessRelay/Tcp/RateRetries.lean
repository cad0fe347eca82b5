import RootlessRelay.Tcp.Overdraft

/-!
# Retries after a refusal of the limiter

Each refusal schedules a retry of its own, whether or not one is pending, and a retry
that is refused again schedules the next. So the number of pending retries of a
connection grows by one with every refusal and shrinks by one with every retry that
runs (`handle_counts`).

A refusal can be told from the state in which a callback enters the send loop: there is one
exactly if the loop comes to a segment that the limiter has no room for. The number of
pending retries therefore stays at one or less in the runs in which, while a retry is
pending, the limiter has room for all that the loop comes to (`run_single_retry_iff`).
-/

namespace RootlessRelay

open Transition

namespace Conn

section Definitions

variable (cfg : Settings) (turn : Turn)

/-- The connection as `handleTCP` hands it to `trySendToVM`, if it does, once
the handshake is over. -/
def establishedAttempt (c : Conn) (progress windowChanged : Bool) : Option Conn :=
  if c.state.isOpen && progress && !c.bothClosed then some (c.resetDup windowChanged) else none

/-- The same for a whole segment. Only an acknowledgement leads to an attempt. -/
def segmentAttempt (c : Conn) (seg : VMSegment) : Option Conn :=
  if seg.rst || !seg.ack then none
  else
    match c.noteAck cfg turn seg with
    | .error _ => none
    | .ok (c, status, windowChanged) =>
      if status = .future ∨ status = .stale then none
      else
        let progress := decide (status = .advanced) || windowChanged
        if c.state = .synSent then
          if status ≠ .advanced ∨ c.send.retransmission.hasOutstanding = true then none
          else (({ c with state := .established } : Conn).sendTCPAck cfg).establishedAttempt
            progress windowChanged
        else c.establishedAttempt progress windowChanged

/-- The connection as a callback hands it to `trySendToVM`, if it does. -/
def attempt (c : Conn) : Event → Option Conn
  | .segment seg => c.segmentAttempt cfg turn seg
  | .sourceData data => some (c.handed cfg (.sourceData data))
  | .sourceEnd => if c.state = .closed then none else some (c.handed cfg .sourceEnd)
  | .localClose => some (c.handed cfg .localClose)
  | .pacerTimer => some (c.handed cfg .pacerTimer)
  | .rateRetry => some (c.handed cfg .rateRetry)
  | .immediate => some (c.handed cfg .immediate)
  | .staleResume => some c
  | _ => none

/-- The limiter refuses in a callback, which schedules a retry. -/
def refusedIn (c : Conn) (event : Event) : Bool :=
  (c.attempt cfg turn event).any fun c => c.sendRefused cfg turn

/-- The retries that are pending while a callback runs. The one whose callback
runs is not pending any more. -/
def pendingRetries (c : Conn) : Event → Nat
  | .rateRetry => c.send.rateRetries - 1
  | _ => c.send.rateRetries

/-- While a retry is pending, the limiter has room for all that a send loop
comes to. -/
def SingleRetry (c : Conn) (label : Turn × Event) : Prop :=
  0 < c.pendingRetries label.2 → ∀ c₁ ∈ c.attempt cfg label.1 label.2,
    c₁.EntersLoop → (c₁.sendOutlook cfg).Granted label.1

instance (c : Conn) (label : Turn × Event) : Decidable (c.SingleRetry cfg label) :=
  inferInstanceAs (Decidable (_ → _))

end Definitions

variable {cfg : Settings} {turn : Turn} {c c' c'' : Conn} {seg : VMSegment} {refusals : Nat}

/-- The limiter has refused so often between the two. -/
structure Counts (refusals : Nat) (c c' : Conn) : Prop where
  direction : c'.direction = c.direction
  retries : c'.send.rateRetries = c.send.rateRetries + refusals

theorem Sends.counts (h : Sends cfg refusals c c') : Counts refusals c c' :=
  ⟨h.direction, h.retries⟩

theorem Counts.trans {refusals' : Nat} (h : Counts refusals c c')
    (h' : Counts refusals' c' c'') : Counts (refusals + refusals') c c'' :=
  ⟨h'.direction.trans h.direction, by rw [h'.retries, h.retries, Nat.add_assoc]⟩

theorem Counts.after (h : Counts 0 c c') (h' : Counts refusals c' c'') : Counts refusals c c'' := by
  have both := h.trans h'
  rwa [Nat.zero_add] at both

theorem handleTCPData_counts (cfg : Settings) (turn : Turn) (c : Conn) (seg : VMSegment) :
    Counts 0 c (c.handleTCPData cfg turn seg) := by
  obtain ⟨recv, hpaid⟩ := handleTCPPayload_sends cfg turn c seg
  have hpaid : Counts 0 c (c.handleTCPPayload cfg turn seg).1 := ⟨hpaid.direction, hpaid.retries⟩
  unfold handleTCPData
  dsimp only
  split
  · exact hpaid
  · obtain ⟨recv', hfin⟩ :=
      handleTCPFin_sends cfg (c.handleTCPPayload cfg turn seg).1 seg
    exact hpaid.trans ⟨hfin.direction, hfin.retries⟩

/-- How often the limiter refuses on the way that `attempt` describes. -/
def refusalsOf (cfg : Settings) (turn : Turn) (attempted : Option Conn) : Nat :=
  (attempted.any fun c => c.sendRefused cfg turn).toNat

/-- The established part of `handleTCP` counts the refusal of its send loop. -/
theorem handleTCPEstablished_counts {progress windowChanged : Bool}
    (h : c.handleTCPEstablished cfg turn seg progress windowChanged = .ok c') :
    Counts (refusalsOf cfg turn (c.establishedAttempt progress windowChanged)) c c' := by
  unfold handleTCPEstablished at h
  unfold establishedAttempt
  by_cases hopen : c.state.isOpen = true
  swap
  · rw [if_pos (by simp [hopen])] at h
    rw [if_neg (by simp [hopen])]
    cases h
    exact (@Sends.refl cfg c).counts
  rw [if_neg (by simp [hopen])] at h
  by_cases hend : (progress && c.bothClosed) = true
  · rw [if_pos hend] at h
    rw [Bool.and_eq_true] at hend
    rw [if_neg (by simp [hend.2])]
    cases h
    exact (finishTCPConnection_sends cfg c).counts
  rw [if_neg hend] at h
  cases progress with
  | false =>
      cases h
      rw [if_neg (by simp)]
      exact handleTCPData_counts cfg turn c seg
  | true =>
      rw [if_pos (by simpa [hopen] using hend)]
      simp only [if_true] at h
      cases hsend : (c.resetDup windowChanged).trySendToVM cfg turn with
      | error thrown =>
          unfold resetDup at hsend
          rw [hsend] at h
          cases h
      | ok c₁ =>
          have hreset := hsend
          unfold resetDup at hreset
          rw [hreset] at h
          cases h
          have hsent := (resetDup_sends cfg c windowChanged).after (trySendToVM_sends hsend)
          exact hsent.counts.trans (handleTCPData_counts cfg turn c₁ seg)

/-- The same with the end of the handshake in front of it. -/
theorem handleTCPState_counts {status : AckStatus} {windowChanged : Bool}
    (h : c.handleTCPState cfg turn seg (some status) windowChanged = .ok c') :
    Counts (refusalsOf cfg turn
      (if c.state = .synSent then
        if status ≠ .advanced ∨ c.send.retransmission.hasOutstanding = true then none
        else (({ c with state := .established } : Conn).sendTCPAck cfg).establishedAttempt
          (decide (status = .advanced) || windowChanged) windowChanged
      else c.establishedAttempt (decide (status = .advanced) || windowChanged) windowChanged))
      c c' := by
  have hprogress : (decide (some status = some .advanced) || windowChanged) =
      (decide (status = .advanced) || windowChanged) := by simp
  unfold handleTCPState at h
  rw [hprogress] at h
  by_cases hstate : c.state = .synSent
  · rw [if_pos hstate] at h ⊢
    by_cases hearly : status ≠ .advanced ∨ c.send.retransmission.hasOutstanding = true
    · rw [if_pos (by simpa using hearly)] at h
      rw [if_pos hearly]
      cases h
      exact (@Sends.refl cfg c).counts
    · rw [if_neg (by simpa using hearly)] at h
      rw [if_neg hearly]
      have hsent := sendTCPAck_sends cfg { c with state := .established }
      have hacked : Counts 0 c (({ c with state := .established } : Conn).sendTCPAck cfg) :=
        ⟨hsent.direction, hsent.retries⟩
      exact hacked.after (handleTCPEstablished_counts h)
  · rw [if_neg hstate] at h ⊢
    exact handleTCPEstablished_counts h

/-- A segment counts the refusal of the attempt it leads to. -/
theorem handleTCP_counts (h : c.handleTCP cfg turn seg = .ok c') :
    Counts (refusalsOf cfg turn (c.segmentAttempt cfg turn seg)) c c' := by
  unfold segmentAttempt
  cases hack : seg.ack with
  | false =>
      rw [if_pos (by simp)]
      unfold handleTCP at h
      rw [hack] at h
      split at h
      · cases h
        split
        · exact (fastRetransmit_sends cfg turn c).counts
        · exact (@Sends.refl cfg c).counts
      split at h
      · cases h
        exact (abortTCPConnection_sends cfg turn c false).counts
      rw [if_pos (by simp)] at h
      unfold handleTCPState at h
      split at h
      · rw [if_pos (by simp)] at h
        cases h
        exact (@Sends.refl cfg c).counts
      · have hcounted := handleTCPEstablished_counts h
        unfold establishedAttempt at hcounted
        rwa [if_neg (by simp)] at hcounted
  | true =>
      cases hrst : seg.rst with
      | true =>
          rw [if_pos (by simp)]
          unfold handleTCP at h
          rw [if_neg (by simp [hack]), if_pos hrst] at h
          cases h
          exact (abortTCPConnection_sends cfg turn c false).counts
      | false =>
          rw [if_neg (by simp)]
          rw [handleTCP_noteAck cfg turn c hrst hack] at h
          cases hnoted : c.noteAck cfg turn seg with
          | error thrown =>
              rw [hnoted] at h
              cases h
          | ok result =>
              obtain ⟨c₁, status, windowChanged⟩ := result
              rw [hnoted] at h
              have hsent := noteAck_sends hnoted
              dsimp only at h ⊢
              by_cases hignored : status = .future ∨ status = .stale
              · rw [if_pos hignored] at h ⊢
                cases h
                exact hsent.counts
              · rw [if_neg hignored] at h ⊢
                exact hsent.counts.after (handleTCPState_counts h)

theorem bumpActivity_outbound (hdir : c.direction = .outbound) : c.bumpActivity = c := by
  rw [bumpActivity, hdir]

theorem trySend_counts (hdir : c.direction = .outbound) (h : c.trySend cfg turn = .ok c') :
    Counts (c.sendRefused cfg turn).toNat c c' := by
  unfold trySend at h
  rw [hdir] at h
  exact (trySendToVM_sends h).counts

/-- Every callback changes the number of pending retries as its attempt says. -/
theorem handle_counts {event : Event} (hdir : c.direction = .outbound)
    (h : c.handle cfg turn event = .ok c') :
    c'.direction = .outbound ∧ c'.send.rateRetries =
      c.pendingRetries event + (c.refusedIn cfg turn event).toNat := by
  have hkept : ∀ {n : Nat}, Counts n c c' → c'.direction = .outbound ∧
      c'.send.rateRetries = c.send.rateRetries + n := fun hcounts =>
    ⟨hcounts.direction.trans hdir, hcounts.retries⟩
  have hquiet : Sends cfg 0 c c' → c'.direction = .outbound ∧
      c'.send.rateRetries = c.send.rateRetries + false.toNat := fun hsent => hkept hsent.counts
  have hattempt : ∀ {c₁ : Conn}, c.attempt cfg turn event = some c₁ →
      c₁.send.rateRetries = c.pendingRetries event → c₁.direction = .outbound →
      c₁.trySend cfg turn = .ok c' → c'.direction = .outbound ∧
        c'.send.rateRetries = c.pendingRetries event + (c.refusedIn cfg turn event).toNat :=
    fun hattempted hpending hdir₁ htry => by
      have hcounts := trySend_counts hdir₁ htry
      rw [refusedIn, hattempted, ← hpending]
      exact ⟨hcounts.direction.trans hdir₁, hcounts.retries⟩
  cases event with
  | segment seg =>
      unfold handle onSegment at h
      rw [hdir] at h
      exact hkept (handleTCP_counts h)
  | sourceData data =>
      have hbumped := bumpActivity_outbound hdir
      refine hattempt rfl ?_ ?_ h
      · rw [handed, hbumped]
        rfl
      · rw [handed, hbumped]
        exact hdir
  | sourceEnd =>
      have hended : ({ c with send := { c.send with sourceEnded := true } } : Conn).direction =
          .outbound := hdir
      have hbumped := bumpActivity_outbound hended
      unfold handle onSourceEnd at h
      dsimp only at h
      by_cases hclosed : c.state = .closed
      · rw [if_pos hclosed] at h
        cases h
        have hnone : c.attempt cfg turn .sourceEnd = none := if_pos hclosed
        rw [refusedIn, hnone]
        exact ⟨hdir, rfl⟩
      · rw [if_neg hclosed] at h
        refine hattempt (if_neg hclosed) ?_ ?_ h
        · rw [handed, hbumped]
          rfl
        · rw [handed, hbumped]
          exact hdir
  | localClose => exact hattempt rfl rfl hdir h
  | endpointError =>
      cases h
      exact hquiet (abort_sends cfg turn c true)
  | sinkDrain =>
      cases h
      exact hquiet (onTCPReceiveDrain_sends cfg c)
  | sinkEnd =>
      cases h
      exact hquiet (.of_eq rfl rfl rfl id rfl)
  | retransmissionTimer generation =>
      cases h
      exact hquiet (fireRetransmissionTimer_sends cfg turn c generation)
  | pacerTimer => exact hattempt rfl rfl hdir h
  | ackTimer =>
      cases h
      exact hquiet (fireAckTimer_sends cfg c)
  | idleTimer =>
      cases h
      have hfired : Sends cfg 0 c { c with idleTimer := false } := .of_eq rfl rfl rfl id rfl
      exact hquiet (hfired.andThen (abort_sends cfg turn _ true))
  | removalTimer =>
      cases h
      exact hquiet (.of_eq rfl rfl rfl id rfl)
  | rateRetry => exact hattempt rfl rfl hdir h
  | immediate => exact hattempt rfl rfl hdir h
  | staleResume => exact hattempt rfl rfl hdir h
  | transportFlush =>
      cases h
      exact hquiet (.of_eq rfl rfl rfl id rfl)
  | otherTraffic rateLimiter =>
      cases h
      exact hquiet (.of_eq rfl rfl rfl id rfl)

/-- An acknowledgement of a connection that has finished leads to no attempt. -/
theorem Finished.segmentAttempt (h : Finished cfg c) (turn : Turn) (seg : VMSegment) :
    c.segmentAttempt cfg turn seg = none := by
  unfold Conn.segmentAttempt
  split
  · rfl
  cases hnoted : c.noteAck cfg turn seg with
  | error thrown => rfl
  | ok result =>
      obtain ⟨c₁, status, windowChanged⟩ := result
      have hstate : c₁.state = .closed := (noteAck_state hnoted).trans h.state
      dsimp only
      split
      · rfl
      · rw [if_neg (by rw [hstate]; decide), establishedAttempt, hstate]
        rfl

/-- A live connection stays consistent up to the send loop of a segment. -/
theorem Live.segmentAttempt (h : Live cfg c) (hdir : c.direction = .outbound) {seg : VMSegment}
    {c₁ : Conn} (hattempt : c.segmentAttempt cfg turn seg = some c₁) : c₁.Sending cfg := by
  have hestablished : ∀ {c₀ : Conn} {progress windowChanged : Bool}, Ready cfg c₀ →
      c₀.establishedAttempt progress windowChanged = some c₁ → c₁.Sending cfg := by
    intro c₀ progress windowChanged hready hsome
    unfold establishedAttempt at hsome
    split at hsome
    · cases hsome
      exact (hready.resetDup windowChanged).sending
    · cases hsome
  unfold Conn.segmentAttempt at hattempt
  split at hattempt
  · cases hattempt
  obtain ⟨c₀, status, windowChanged, hok, hnoted⟩ := h.noteAck turn seg
  rw [hok] at hattempt
  dsimp only at hattempt
  split at hattempt
  · cases hattempt
  by_cases hsyn : c₀.state = .synSent
  · rw [if_pos hsyn] at hattempt
    split at hattempt
    · cases hattempt
    · rename_i hacked
      simp only [not_or, Bool.not_eq_true] at hacked
      have hopened := hnoted.ready.establish
        ((congrArg Context.direction hnoted.context).trans hdir) hsyn hacked.2
      exact hestablished (hopened.passive (sendTCPAck_passive cfg _)) hattempt
  · rw [if_neg hsyn] at hattempt
    exact hestablished hnoted.ready hattempt

/-- What a callback hands to `trySendToVM` is consistent, or has nothing to
send. -/
theorem Inv.attempt_sending (h : Inv cfg c) (hdir : c.direction = .outbound) {event : Event}
    (henabled : c.Enabled event) {c₁ : Conn} (hattempt : c.attempt cfg turn event = some c₁)
    (hqueue : c₁.send.sendQueue ≠ []) : c₁.Sending cfg := by
  obtain ⟨hreg, hcan⟩ := henabled
  rcases h hreg with hlive | hfinished
  · have hhanded : Drains event → (c.handed cfg event).Sending cfg := fun hdrains =>
      have hany : ∀ (s : SendStream.State Item Byte) (a : SendStream.Action Byte),
          SendStream.Proper s a → True := fun _ _ _ => trivial
      (hlive.hands turn hcan hany (fun _ _ _ => trivial) hdrains).2.1.sending
    cases event with
    | segment seg => exact hlive.segmentAttempt hdir hattempt
    | sourceEnd =>
        have hopen : c.attempt cfg turn .sourceEnd = some (c.handed cfg .sourceEnd) :=
          if_neg hlive.sending.notClosed
        rw [hopen] at hattempt
        cases hattempt
        exact hhanded trivial
    | sourceData data | localClose | pacerTimer | rateRetry | immediate | staleResume =>
        cases hattempt
        exact hhanded trivial
    | _ => cases hattempt
  · have hidle : c₁.send.sendQueue = c.send.sendQueue → c₁.Sending cfg := fun hsame =>
      absurd (hsame.trans hfinished.empty) hqueue
    cases event with
    | segment seg => exact absurd (hattempt.symm.trans (hfinished.segmentAttempt turn seg)) nofun
    | sourceData data => exact absurd (hcan.2.symm.trans hfinished.sourceEnded) Bool.false_ne_true
    | sourceEnd =>
        exact absurd (Eq.trans (Eq.symm hcan) hfinished.sourceEnded) Bool.false_ne_true
    | localClose | pacerTimer | rateRetry | immediate | staleResume =>
        cases hattempt
        exact hidle rfl
    | _ => cases hattempt

/-- A callback is refused exactly if its send loop comes to a segment without
room for it. -/
theorem Inv.refusedIn_iff (h : Inv cfg c) (hdir : c.direction = .outbound) {event : Event}
    (henabled : c.Enabled event) : c.refusedIn cfg turn event = true ↔
      ∃ c₁ ∈ c.attempt cfg turn event, c₁.EntersLoop ∧ ¬(c₁.sendOutlook cfg).Granted turn := by
  unfold refusedIn
  rw [Option.any_eq_true]
  refine exists_congr fun c₁ => and_congr_right fun hattempt => ?_
  exact sendRefused_iff cfg turn fun hqueue => h.attempt_sending hdir henabled hattempt hqueue

theorem Opened.no_retry (h : Opened cfg c) (hdir : c.direction = .outbound) :
    c.send.rateRetries = 0 := by
  cases h with
  | outbound hopen =>
      refine (sendTrackedTCP_sends (fun _ => plain_control cfg fun windowSize hw => ?_)
        (sends_of_openOutbound hopen)).retries
      rw [← Option.some.inj hw]
      exact Nat.le_max_right _ _
  | reverse hopen =>
      have hsent := sendTrackedTCP_sends
        (fun _ => plain_control cfg fun windowSize hw => by cases hw) (sends_of_openReverse hopen)
      rw [hsent.direction] at hdir
      cases hdir

/-- The runs in which no more than one retry is ever pending are those in which,
while one is pending, the limiter has room for every segment a send loop comes
to. -/
theorem run_single_retry_iff {c₀ : Conn} (hopened : Opened cfg c₀)
    (hdir : c₀.direction = .outbound) {labels : List (Turn × Event)} :
    Run (fun c label c' => Step cfg c label c' ∧ c'.send.rateRetries ≤ 1) c₀ labels c ↔
      Run (Restrict (Step cfg) (SingleRetry cfg)) c₀ labels c := by
  refine Run.restrict_iff
    (I := fun c => Inv cfg c ∧ c.direction = .outbound ∧ c.send.rateRetries ≤ 1) ?_ ?_ ?_
  · exact ⟨hopened.inv, hdir, (hopened.no_retry hdir).trans_le (Nat.zero_le 1)⟩
  · intro c label c' hinv hstep hle
    exact ⟨hinv.1.step hstep, (handle_counts hinv.2.1 hstep.2).1, hle⟩
  · intro c label c' hinv hstep
    obtain ⟨hsound, hout, hle⟩ := hinv
    obtain ⟨-, hretries⟩ := handle_counts hout hstep.2
    have hpending : c.pendingRetries label.2 ≤ c.send.rateRetries := by
      unfold pendingRetries
      split
      · exact Nat.sub_le _ 1
      · exact Nat.le_refl _
    have hrefused : c.refusedIn cfg label.1 label.2 = false ↔ ∀ c₁ ∈ c.attempt cfg label.1 label.2,
        c₁.EntersLoop → (c₁.sendOutlook cfg).Granted label.1 := by
      rw [← Bool.not_eq_true, hsound.refusedIn_iff hout hstep.1]
      simp only [not_exists, not_and, not_not]
    unfold SingleRetry
    rw [hretries, ← hrefused]
    cases c.refusedIn cfg label.1 label.2 with
    | false => exact iff_of_true (hpending.trans hle) fun _ => rfl
    | true =>
        simp only [Bool.toNat_true, Bool.true_eq_false, imp_false]
        omega

/-- A refused byte, and a retry that is refused again. -/
theorem run_single_retry_iff_limited :
    ∃ c, Run (fun c label c' => Step {} c label c' ∧ c'.send.rateRetries ≤ 1) exampleOutbound
      [({}, .segment (exampleUpdate 1000)), ({}, .otherTraffic usedUp), ({}, .sourceData [1]),
        ({}, .rateRetry)] c ∧ c.send.rateRetries = 1 := by
  obtain ⟨c, hrun, hc⟩ := exists_restricted_run {} (SingleRetry {}) exampleOutbound
    [({}, .segment (exampleUpdate 1000)), ({}, .otherTraffic usedUp), ({}, .sourceData [1]),
      ({}, .rateRetry)]
    (fun c => decide (c.send.rateRetries = 1)) (by decide +kernel)
  exact ⟨c, (run_single_retry_iff opened_exampleOutbound rfl).mpr hrun, of_decide_eq_true hc⟩

/-- Two buffers of the endpoint, each refused, leave two retries pending. -/
theorem retries_accumulate : Opened {} exampleOutbound ∧ exampleOutbound.direction = .outbound ∧
    ∃ c, Run (Step {}) exampleOutbound
      [({}, .segment (exampleUpdate 1000)), ({}, .otherTraffic usedUp), ({}, .sourceData [1]),
        ({}, .sourceData [2])] c ∧ c.send.rateRetries = 2 := by
  obtain ⟨c, hrun, hc⟩ := exists_run {} exampleOutbound
    [({}, .segment (exampleUpdate 1000)), ({}, .otherTraffic usedUp), ({}, .sourceData [1]),
      ({}, .sourceData [2])]
    (fun c => decide (c.send.rateRetries = 2)) (by decide +kernel)
  exact ⟨opened_exampleOutbound, rfl, c, hrun, of_decide_eq_true hc⟩

end Conn

end RootlessRelay
