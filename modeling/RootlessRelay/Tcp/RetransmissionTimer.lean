import RootlessRelay.Tcp.RetransmissionRuns

/-!
# The retransmission timer is armed exactly when it is needed

Between methods the timer is pending if and only if the queue is live and has
outstanding segments or is in persist mode. Inside a method only one half holds
(`TimerNeeded`): no timer is pending without need. Every method ends by arming.

The host may hold closures whose timer has been replaced or cancelled, since
cancelling is allowed to do nothing. Each knows its generation, and at most one
of them is the pending timer's; running any other one leaves the queue as it is.
There is thus one timer, whatever the host does with the rest.
-/

namespace RootlessRelay

namespace RetransmissionQueue

/-- The queue has a reason to be woken up: something outstanding, or a window to
probe. -/
def WantsTimer (q : RetransmissionQueue) : Prop :=
  q.closed = false ∧ q.exhausted = false ∧ (q.segments ≠ [] ∨ q.persist = true)

/-- No timer is pending without need. This half survives the updates inside of a
method. -/
def TimerNeeded (q : RetransmissionQueue) : Prop := q.timer.isSome = true → q.WantsTimer

/-- The timer is pending exactly when it is needed, which holds between methods. -/
def TimerExact (q : RetransmissionQueue) : Prop := q.timer.isSome = true ↔ q.WantsTimer

theorem timerNeeded_of_none {q : RetransmissionQueue} (h : q.timer = none) : q.TimerNeeded := by
  intro hsome
  rw [h] at hsome
  cases hsome

theorem TimerNeeded.congr {q q' : RetransmissionQueue} (h : q.TimerNeeded)
    (htimer : q'.timer = q.timer) (hclosed : q'.closed = q.closed)
    (hexhausted : q'.exhausted = q.exhausted) (hpersist : q'.persist = q.persist)
    (hseg : q'.segments = [] ↔ q.segments = []) : q'.TimerNeeded := by
  intro hsome
  obtain ⟨ho, hl, hw⟩ := h (htimer ▸ hsome)
  exact ⟨hclosed ▸ ho, hexhausted ▸ hl, hw.imp (mt hseg.mp) fun hp => hpersist ▸ hp⟩

theorem TimerExact.congr {q q' : RetransmissionQueue} (h : q.TimerExact)
    (htimer : q'.timer = q.timer) (hclosed : q'.closed = q.closed)
    (hexhausted : q'.exhausted = q.exhausted) (hpersist : q'.persist = q.persist)
    (hseg : q'.segments = [] ↔ q.segments = []) : q'.TimerExact := by
  unfold TimerExact WantsTimer at *
  rw [htimer, hclosed, hexhausted, hpersist, ne_eq, hseg]
  exact h

/-- Arming the timer sets it exactly where it is needed. -/
theorem TimerNeeded.armTimer {q : RetransmissionQueue} (h : q.TimerNeeded) :
    q.armTimer.TimerExact := by
  unfold RetransmissionQueue.armTimer
  split
  · rename_i hidle
    refine ⟨h, fun hw => ?_⟩
    obtain ⟨ho, hl, hw⟩ := hw
    simp [ho, hl, hasOutstanding] at hidle
    rcases hw with hw | hw
    · exact absurd hidle.1 hw
    · rw [hidle.2] at hw
      cases hw
  · rename_i hbusy
    refine ⟨fun _ => ?_, fun _ => rfl⟩
    simp only [hasOutstanding, Bool.or_eq_true, Bool.and_eq_true, not_or, Bool.not_eq_true,
      Bool.not_eq_true', Bool.not_eq_false, not_and] at hbusy
    refine ⟨hbusy.1.2, hbusy.2, ?_⟩
    by_cases hseg : q.segments = []
    · exact .inr (hbusy.1.1 (by simp [hseg]))
    · exact .inl hseg

theorem close_timerExact {q : RetransmissionQueue} (h : q.TimerNeeded) : q.close.TimerExact := by
  have hn : q.close.TimerNeeded := by
    unfold RetransmissionQueue.close
    split
    · exact h
    · exact timerNeeded_of_none rfl
  refine ⟨hn, fun hw => ?_⟩
  have hopen := hw.1
  rw [close_closed] at hopen
  cases hopen

theorem track_timerNeeded {q q' : RetransmissionQueue} {sent : SentSegment} {added : Bool}
    (h : q.TimerNeeded) (htrack : q.track sent = .ok (q', added)) : q'.TimerNeeded := by
  obtain ⟨-, he⟩ | ⟨-, -, -, he⟩ | ⟨-, -, -, -, he⟩ | ⟨hopen, hlive, -, -, he⟩ :=
    track_cases q sent
  all_goals rw [he] at htrack
  all_goals cases htrack
  · exact h
  · split
    · rename_i ht
      exact (TimerNeeded.armTimer (timerNeeded_of_none (q := q.append sent) ht.2)).mp
    · exact fun _ => ⟨hopen, hlive, .inl (by simp [append])⟩

/-- Tracking arms the timer of a queue that was empty, and leaves a timer that
is set. -/
theorem track_timerExact {q q' : RetransmissionQueue} {sent : SentSegment} {added : Bool}
    (h : q.TimerExact) (htrack : q.track sent = .ok (q', added)) : q'.TimerExact := by
  refine ⟨track_timerNeeded h.mp htrack, fun hw => ?_⟩
  obtain ⟨-, he⟩ | ⟨-, -, -, he⟩ | ⟨-, -, -, -, he⟩ | ⟨hopen, hlive, -, -, he⟩ :=
    track_cases q sent
  all_goals rw [he] at htrack
  all_goals cases htrack
  · exact h.mpr hw
  · split
    · rename_i ht
      refine (TimerNeeded.armTimer (timerNeeded_of_none (q := q.append sent) ht.2)).mpr ?_
      exact ⟨by simpa [append] using hopen, by simpa [append] using hlive,
        .inl (by simp [append])⟩
    · rename_i ht
      change q.timer.isSome = true
      by_cases hseg : q.segments = []
      · exact Option.isSome_iff_ne_none.mpr fun hnone => ht ⟨hseg, hnone⟩
      · exact h.mpr ⟨hopen, hlive, .inl hseg⟩

theorem Reentrant.timerNeeded {q r : RetransmissionQueue} (hr : q.Reentrant r)
    (h : q.TimerNeeded) : r.TimerNeeded := by
  induction hr with
  | refl => exact h
  | track _ htrack ih => exact track_timerNeeded ih htrack
  | close _ ih => exact (close_timerExact ih).mp

/-- What a callback does to a queue that has given up does not revive it. -/
theorem Reentrant.exhausted {q r : RetransmissionQueue} (hr : q.Reentrant r)
    (h : q.exhausted = true) : r.exhausted = true := by
  induction hr with
  | refl => exact h
  | @track r r' sent _ _ htrack ih =>
      obtain ⟨-, he⟩ | ⟨-, hlive, -⟩ | ⟨-, hlive, -⟩ | ⟨-, hlive, -⟩ := track_cases r sent
      · rw [he] at htrack
        cases htrack
      all_goals rw [hlive] at ih
      all_goals cases ih
  | close _ ih =>
      unfold RetransmissionQueue.close
      split
      · exact ih
      · exact ih

section Methods

variable {σ : Type} (cb : LawfulCallbacks σ)

theorem exhaust_timerExact (q : RetransmissionQueue) (owner : σ) (error : Exhaustion) :
    (exhaust cb.toCallbacks q owner error).1.TimerExact := by
  have hr := cb.onExhausted_reentrant { q with exhausted := true }.clearTimer owner error
    (oldest { q with exhausted := true }.clearTimer)
  refine ⟨hr.timerNeeded (timerNeeded_of_none rfl), fun hw => ?_⟩
  have hlive := hw.2.1
  have hdone := hr.exhausted rfl
  unfold exhaust at hlive
  rw [hdone] at hlive
  cases hlive

/-- After a call of `onRetransmit` made with the timer cleared, either the queue
is exhausted and exact, or arming it makes it exact. -/
theorem emitRetransmission_timer {q : RetransmissionQueue} (h : q.timer = none) (owner : σ)
    (reason : Reason) :
    (emitRetransmission cb.toCallbacks q owner reason).1.TimerNeeded ∧
      ((emitRetransmission cb.toCallbacks q owner reason).2.2 = false →
        (emitRetransmission cb.toCallbacks q owner reason).1.TimerExact) := by
  have hcall := (cb.onRetransmit_reentrant q owner q.oldest reason).timerNeeded
    (timerNeeded_of_none h)
  unfold emitRetransmission
  split <;> rename_i heq <;> rw [heq] at hcall
  · exact ⟨hcall, nofun⟩
  · exact ⟨(exhaust_timerExact cb _ _ _).mp, fun _ => exhaust_timerExact cb _ _ _⟩

theorem TimerNeeded.backOff {q : RetransmissionQueue} (h : q.TimerNeeded) :
    q.backOff.TimerExact :=
  TimerNeeded.armTimer (h.congr rfl rfl rfl rfl .rfl)

theorem fastRetransmit_timerExact {q : RetransmissionQueue} (h : q.TimerExact) (owner : σ) :
    (fastRetransmit cb.toCallbacks q owner).1.TimerExact := by
  have hemit := emitRetransmission_timer cb
    (q := { q with currentRtoMs := q.initialRtoMs }.clearTimer) rfl owner .fast
  unfold fastRetransmit
  split
  · exact h
  · dsimp only
    split <;> rename_i heq <;> rw [heq] at hemit
    · exact hemit.2 rfl
    · exact hemit.1.armTimer

theorem setPersist_timerExact {q : RetransmissionQueue} (h : q.TimerExact) (owner : σ)
    (enabled : Bool) : (setPersist cb.toCallbacks q owner enabled).1.TimerExact := by
  unfold setPersist
  split
  · exact h
  · dsimp only
    split
    · exact (emitRetransmission_timer cb (q := q.switchPersist enabled) rfl owner
        .windowOpen).1.armTimer
    · exact (timerNeeded_of_none (q := q.switchPersist enabled) rfl).armTimer

theorem acknowledge_timerExact {q q' : RetransmissionQueue} {ack : Seq} {result : AckResult}
    (h : q.TimerExact) (hack : q.acknowledge ack = .ok (q', result)) : q'.TimerExact := by
  obtain ⟨rfl, -⟩ | ⟨rfl, -⟩ | ⟨-, -, segments, inFlight, rfl⟩ := acknowledge_cases hack
  · exact h
  · exact h.congr rfl rfl rfl rfl .rfl
  · exact (timerNeeded_of_none rfl).armTimer

theorem handleProbeTimeout_timerExact {q : RetransmissionQueue} (owner : σ) :
    (handleProbeTimeout cb.toCallbacks q owner).1.TimerExact := by
  unfold handleProbeTimeout
  split
  · exact exhaust_timerExact cb _ _ _
  · split
    · exact (timerNeeded_of_none rfl).backOff
    · exact (timerNeeded_of_none rfl).backOff
    · exact exhaust_timerExact cb _ _ _

/-- After a timeout the timer is set again, unless the queue has given up or its
callback has closed it. -/
theorem handleRetransmissionTimeout_timerExact {q : RetransmissionQueue} (h : q.timer = none)
    (hpersist : q.persist = false) (owner : σ) :
    (handleRetransmissionTimeout cb.toCallbacks q owner).1.TimerExact := by
  have hemit := emitRetransmission_timer cb
    (q := { q.countTimeout with segments := countRetransmission q.segments }) h owner .timeout
  unfold handleRetransmissionTimeout
  split
  · rename_i hempty
    refine ⟨timerNeeded_of_none h, fun hw => ?_⟩
    simp only [hasOutstanding, Bool.not_not, List.isEmpty_iff] at hempty
    rcases hw.2.2 with hne | hp
    · exact absurd hempty hne
    · rw [hpersist] at hp
      cases hp
  split
  · exact exhaust_timerExact cb _ _ _
  · dsimp only
    split <;> rename_i heq <;> rw [heq] at hemit
    · exact hemit.2 rfl
    · exact hemit.1.backOff

/-- A superseded callback changes nothing but the host's list; the current one
runs with `timer` already cleared. -/
theorem fireTimer_timerExact {q : RetransmissionQueue} (h : q.TimerExact) (owner : σ)
    (generation : Nat) : (fireTimer cb.toCallbacks q owner generation).1.TimerExact := by
  unfold fireTimer
  dsimp only
  split
  · exact h.congr rfl rfl rfl rfl .rfl
  · rename_i hlive
    simp only [ne_eq, not_or, Bool.not_eq_true, Decidable.not_not] at hlive
    unfold handleTimeout
    rw [if_neg (by simp [hlive.2.1, hlive.2.2])]
    split
    · exact handleProbeTimeout_timerExact cb owner
    · rename_i hpersist
      exact handleRetransmissionTimeout_timerExact cb rfl (by simpa using hpersist) owner

end Methods

theorem step_timerExact {σ : Type} {cb : LawfulCallbacks σ} {s t : RetransmissionQueue × σ}
    {op : Operation} (h : s.1.TimerExact) (hstep : Step cb s op t) : t.1.TimerExact := by
  cases hstep with
  | track htrack => exact track_timerExact h htrack
  | trackThrows _ => exact h
  | acknowledge hack => exact acknowledge_timerExact h hack
  | acknowledgeThrows _ => exact h
  | fastRetransmit => exact fastRetransmit_timerExact cb h _
  | setPersist => exact setPersist_timerExact cb h _ _
  | fireTimer _ => exact fireTimer_timerExact cb h _ _
  | close => exact close_timerExact h.mp

theorem new_timerExact (isn : Seq) (initialRtoMs maxRtoMs maxRetransmissions : Nat) :
    (new isn initialRtoMs maxRtoMs maxRetransmissions).TimerExact := by
  refine ⟨nofun, fun hw => ?_⟩
  rcases hw.2.2 with hseg | hpersist
  · exact absurd rfl hseg
  · cases hpersist

theorem Reachable.timerExact {σ : Type} {cb : LawfulCallbacks σ} {q : RetransmissionQueue}
    (h : Reachable cb q) : q.TimerExact := by
  obtain ⟨isn, initial, most, budget, owner, owner', hrun⟩ := h
  exact hrun.invariant (P := fun s => s.1.TimerExact)
    (fun _ _ _ hs hstep => step_timerExact hs hstep) (new_timerExact isn initial most budget)

/-- How the scheduled callbacks relate to the timer: each was scheduled once,
none is from the future, and the current generation is scheduled exactly while
its timer is pending. -/
structure Scheduling (q : RetransmissionQueue) : Prop where
  once : q.scheduled.Nodup
  past : ∀ generation ∈ q.scheduled, generation ≤ q.timerGeneration
  named : ∀ timer, q.timer = some timer → timer.generation = q.timerGeneration
  current : q.closed = false → q.exhausted = false →
    (q.timerGeneration ∈ q.scheduled ↔ q.timer.isSome = true)

theorem Scheduling.congr {q q' : RetransmissionQueue} (h : q.Scheduling)
    (htimer : q'.timer = q.timer) (hgeneration : q'.timerGeneration = q.timerGeneration)
    (hscheduled : q'.scheduled = q.scheduled) (hclosed : q'.closed = false → q.closed = false)
    (hexhausted : q'.exhausted = false → q.exhausted = false) : q'.Scheduling := by
  refine ⟨?_, ?_, ?_, fun hopen hlive => ?_⟩
  · rw [hscheduled]
    exact h.once
  · rw [hscheduled, hgeneration]
    exact h.past
  · rw [htimer, hgeneration]
    exact h.named
  · rw [hscheduled, hgeneration, htimer]
    exact h.current (hclosed hopen) (hexhausted hlive)

theorem Scheduling.clearTimer {q : RetransmissionQueue} (h : q.Scheduling) :
    q.clearTimer.Scheduling where
  once := h.once
  past generation hmem := Nat.le_succ_of_le (h.past generation hmem)
  named _ hnone := by cases hnone
  current _ _ := by
    refine ⟨fun hmem => ?_, fun hsome => by cases hsome⟩
    exact absurd (h.past _ hmem) (Nat.not_succ_le_self _)

/-- Arming schedules a callback of a new generation, and supersedes the one
before. -/
theorem Scheduling.armTimer {q : RetransmissionQueue} (h : q.Scheduling) :
    q.armTimer.Scheduling := by
  unfold RetransmissionQueue.armTimer
  split
  · exact h
  · refine ⟨?_, ?_, ?_, fun _ _ => ?_⟩
    · refine List.nodup_cons.mpr ⟨fun hmem => ?_, h.once⟩
      exact absurd (h.past _ hmem) (Nat.not_succ_le_self _)
    · intro generation hmem
      rcases List.mem_cons.mp hmem with rfl | hold
      · exact Nat.le_refl _
      · exact Nat.le_succ_of_le (h.past generation hold)
    · rintro timer ⟨⟩
      rfl
    · simp

/-- Every update of the queue keeps its scheduling in order. -/
theorem schedulingKept : Kept Scheduling where
  fields _ _ _ h := h.congr rfl rfl rfl id id
  gaveUp h := h.congr rfl rfl rfl id nofun
  counted h := h.congr rfl rfl rfl id id
  armed h := h.armTimer
  cleared h := h.clearTimer
  tracked {q q' sent added} h htrack := by
    obtain ⟨-, he⟩ | ⟨-, -, -, he⟩ | ⟨-, -, -, -, he⟩ | ⟨-, -, -, -, he⟩ := track_cases q sent
    all_goals rw [he] at htrack
    all_goals cases htrack
    · exact h
    · have happend : (q.append sent).Scheduling := h.congr rfl rfl rfl id id
      split
      · exact happend.armTimer
      · exact happend
  acknowledged {q q' ack result} h hack := by
    obtain ⟨rfl, -⟩ | ⟨rfl, -⟩ | ⟨-, -, segments, inFlight, rfl⟩ := acknowledge_cases hack
    · exact h
    · exact h.congr rfl rfl rfl id id
    · apply Scheduling.armTimer
      apply Scheduling.clearTimer
      exact h.congr rfl rfl rfl id id
  closed {q} h := by
    unfold RetransmissionQueue.close
    split
    · exact h
    · exact (h.clearTimer).congr rfl rfl rfl nofun id
  discarded {q generation} hstale h := by
    refine ⟨h.once.erase _, fun g hmem => h.past g (List.mem_of_mem_erase hmem), h.named,
      fun hopen hlive => ?_⟩
    have hne : generation ≠ q.timerGeneration := by
      rcases hstale with hne | hshut | hdone
      · exact hne
      · exact absurd (hopen.symm.trans hshut) (by decide)
      · exact absurd (hlive.symm.trans hdone) (by decide)
    rw [← h.current hopen hlive]
    exact List.mem_erase_of_ne hne.symm
  fired {q} h := by
    refine ⟨h.once.erase _, fun g hmem => h.past g (List.mem_of_mem_erase hmem), nofun,
      fun _ _ => ⟨fun hmem => ?_, nofun⟩⟩
    exact absurd hmem h.once.not_mem_erase

theorem Reachable.scheduling {σ : Type} {cb : LawfulCallbacks σ} {q : RetransmissionQueue}
    (h : Reachable cb q) : q.Scheduling :=
  h.kept schedulingKept fun _ _ _ _ => ⟨List.nodup_nil, nofun, nofun, fun _ _ => by
    simp [new]⟩

/-- A scheduled callback that is not the pending timer's. -/
def Superseded (q : RetransmissionQueue) (generation : Nat) : Prop :=
  ∀ timer, q.timer = some timer → timer.generation ≠ generation

/-- The host running the callback makes the queue act, on some owner. -/
def LiveCallback {σ : Type} (cb : Callbacks σ) (q : RetransmissionQueue) (generation : Nat) :
    Prop :=
  generation ∈ q.scheduled ∧ ∃ owner, fireTimer cb q owner generation ≠
    ({ q with scheduled := q.scheduled.erase generation }, owner)

/-- A superseded callback only leaves the host's list. The owner is not called. -/
theorem Reachable.superseded {σ : Type} {cb : LawfulCallbacks σ} {q : RetransmissionQueue}
    (h : Reachable cb q) {generation : Nat} (hmem : generation ∈ q.scheduled)
    (hold : q.Superseded generation) (owner : σ) :
    fireTimer cb.toCallbacks q owner generation =
      ({ q with scheduled := q.scheduled.erase generation }, owner) := by
  unfold fireTimer
  refine if_pos ?_
  by_contra hcurrent
  simp only [ne_eq, not_or, Bool.not_eq_true, Decidable.not_not] at hcurrent
  obtain ⟨rfl, hopen, hlive⟩ := hcurrent
  obtain ⟨timer, htimer⟩ := Option.isSome_iff_exists.mp
    ((h.scheduling.current hopen hlive).mp hmem)
  exact hold timer htimer (h.scheduling.named timer htimer)

/-- After every operation of every run, the timer is pending exactly when the
queue is live and has outstanding segments or is in persist mode; its callback
is scheduled, at most one scheduled callback can make the queue act, and it is
scheduled once; every superseded callback leaves queue and owner as they are. -/
theorem reachable_one_timer {σ : Type} {cb : LawfulCallbacks σ} {q : RetransmissionQueue}
    (h : Reachable cb q) :
    (q.timer.isSome = true ↔ q.closed = false ∧ q.exhausted = false ∧
      (q.hasOutstanding = true ∨ q.persist = true)) ∧
    (∀ timer, q.timer = some timer → timer.generation ∈ q.scheduled) ∧
    (∀ g g', LiveCallback cb.toCallbacks q g → LiveCallback cb.toCallbacks q g' → g = g') ∧
    q.scheduled.Nodup ∧
    (∀ g ∈ q.scheduled, q.Superseded g → ∀ owner, fireTimer cb.toCallbacks q owner g =
      ({ q with scheduled := q.scheduled.erase g }, owner)) := by
  have hexact := h.timerExact
  have hscheduling := h.scheduling
  have hlive : ∀ g, LiveCallback cb.toCallbacks q g → g = q.timerGeneration := by
    rintro g ⟨hmem, owner, hacts⟩
    by_contra hne
    apply hacts
    exact h.superseded hmem (fun timer htimer heq =>
      hne (heq ▸ hscheduling.named timer htimer)) owner
  refine ⟨?_, ?_, ?_, hscheduling.once, ?_⟩
  · have hout : q.hasOutstanding = true ↔ q.segments ≠ [] := by simp [hasOutstanding]
    rw [hout]
    exact hexact
  · intro timer htimer
    have hsome : q.timer.isSome = true := by rw [htimer]; rfl
    obtain ⟨hopen, hrunning, -⟩ := hexact.mp hsome
    rw [hscheduling.named timer htimer]
    exact (hscheduling.current hopen hrunning).mpr hsome
  · intro g g' hg hg'
    rw [hlive g hg, hlive g' hg']
  · intro g hmem hold owner
    exact h.superseded hmem hold owner

/-- An owner whose first probe tracks a byte from inside the firing callback. -/
def probingCallbacks : LawfulCallbacks Unit where
  onRetransmit q o _ _ := (q, o, false)
  onPersistProbe q o _ :=
    match q.track { seq := q.sndNxt, payload := [7] } with
    | .ok (q, _) => (q, o, .returned)
    | .error _ => (q, o, .threw)
  onExhausted q o _ _ := (q, o)
  onRetransmit_reentrant q _ _ _ := .refl q
  onPersistProbe_reentrant q _ _ := by
    split
    · rename_i htrack
      exact .track (.refl q) htrack
    · exact .refl q
  onExhausted_reentrant q _ _ _ := .refl q

/-- After one probe two callbacks are scheduled: the one its own `track` armed
has been superseded, and running it does nothing. -/
theorem reachable_one_timer_probe :
    ∃ q : RetransmissionQueue, q.scheduled = [5, 3] ∧ q.timer = some ⟨5, 2000⟩ ∧
      fireTimer probingCallbacks.toCallbacks q () 3 = ({ q with scheduled := [5] }, ()) := by
  let q₀ := new 100#32 1000 60000 4
  let q₁ := (setPersist probingCallbacks.toCallbacks q₀ () true).1
  let q₂ := (fireTimer probingCallbacks.toCallbacks q₁ () 2).1
  have hreach : Reachable probingCallbacks q₂ :=
    ⟨100#32, 1000, 60000, 4, (), (), [.setPersist true, .fireTimer 2],
      .snoc (t := (q₁, ())) (.single .setPersist) (.fireTimer (by decide))⟩
  have hpending : q₂.timer = some ⟨5, 2000⟩ := by decide
  refine ⟨q₂, by decide, hpending, ?_⟩
  refine (reachable_one_timer hreach).2.2.2.2 3 (by decide) ?_ ()
  intro timer htimer
  rw [hpending] at htimer
  cases htimer
  decide

end RetransmissionQueue

end RootlessRelay
