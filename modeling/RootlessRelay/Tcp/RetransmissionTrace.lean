import RootlessRelay.Tcp.RetransmissionTimer

/-!
# The retry budget over whole runs

A run is recorded: every callback call, every acknowledgement and every change
of mode leaves an entry. The record is kept by the callbacks themselves, so the
methods are those of `Retransmission`. `Traced` relates the record to the few
fields that decide when the queue gives up; each method keeps it.

A record lists the newest entry first. What the queue reports when it gives up
is then a statement about the entries since the last renewal: so many
retransmissions, or so many probes, all of them in one mode. Callbacks may call
back into the queue, and they may throw; the record is kept through both.
-/

namespace RootlessRelay

/-- What a run leaves in its record: calls of callbacks, and what renews the
budget. -/
inductive Entry
  | retransmitted (reason : Reason) (threw : Bool)
  | probed (result : ProbeResult)
  | exhausted (error : Exhaustion) (persist : Bool)
  | closed
  | acknowledged (status : AckStatus) (persist : Bool)
  | switched (enabled : Bool)
  deriving DecidableEq, Repr

namespace Entry

/-- A call of one of the owner's callbacks. -/
def isCall : Entry → Bool
  | retransmitted _ _ | probed _ | exhausted _ _ => true
  | closed | acknowledged _ _ | switched _ => false

/-- The queue reported that it was giving up. -/
def isExhausted : Entry → Bool
  | exhausted _ _ => true
  | _ => false

/-- The queue is closed or exhausted from here on. -/
def isFinal : Entry → Bool
  | exhausted _ _ | closed => true
  | _ => false

/-- The callback threw. -/
def threw : Entry → Bool
  | retransmitted _ threw => threw
  | probed .threw => true
  | _ => false

/-- An RTO retransmission, whether or not it threw. -/
def isTimeout : Entry → Bool
  | retransmitted .timeout _ => true
  | _ => false

/-- A probe that was not reported as transport backpressure. -/
def isProbe : Entry → Bool
  | probed .refused => false
  | probed _ => true
  | _ => false

/-- An advancing ACK, a change of mode or, in persist mode, a duplicate ACK. -/
def renews : Entry → Bool
  | acknowledged .advanced _ | acknowledged .duplicate true | switched _ => true
  | _ => false

end Entry

/-- The entries since the budget was last renewed. Records list the newest
first. -/
def sinceRenewal (record : List Entry) : List Entry := record.takeWhile (!·.renews)

/-- The attempts made since the budget was last renewed. -/
def attempts (record : List Entry) : Nat :=
  (sinceRenewal record).countP fun entry => entry.isTimeout || entry.isProbe

theorem sinceRenewal_cons (entry : Entry) (record : List Entry) :
    sinceRenewal (entry :: record) =
      if entry.renews then [] else entry :: sinceRenewal record := by
  unfold sinceRenewal
  rw [List.takeWhile_cons]
  cases entry.renews <;> rfl

theorem attempts_cons (entry : Entry) (record : List Entry) :
    attempts (entry :: record) = if entry.renews then 0
      else attempts record + if entry.isTimeout || entry.isProbe then 1 else 0 := by
  unfold attempts
  rw [sinceRenewal_cons]
  split
  · rfl
  · exact List.countP_cons

/-- The part of the queue on which giving up depends. -/
structure Budget where
  initialRtoMs : Nat
  maxRtoMs : Nat
  maxRetransmissions : Nat
  currentRtoMs : Nat
  timeoutRetransmissions : Nat
  persist : Bool
  closed : Bool
  exhausted : Bool

/-- Closing also leaves persist mode. -/
def Budget.shut (b : Budget) : Budget := { b with closed := true, persist := false }

/-- Callbacks that have not closed the queue when they throw. -/
structure CarefulCallbacks (σ : Type) extends LawfulCallbacks σ where
  onRetransmit_open : ∀ (q : RetransmissionQueue) owner segment reason, q.closed = false →
    (onRetransmit q owner segment reason).2.2 = true →
    (onRetransmit q owner segment reason).1.closed = false
  onPersistProbe_open : ∀ (q : RetransmissionQueue) owner segment, q.closed = false →
    (onPersistProbe q owner segment).2.2 = .threw →
    (onPersistProbe q owner segment).1.closed = false

/-- A queue that was open and is closed now has been closed in between. -/
def noteClose (before after : Bool) (record : List Entry) : List Entry :=
  if !before && after then .closed :: record else record

namespace RetransmissionQueue

/-- The budget of a queue. -/
def budget (q : RetransmissionQueue) : Budget where
  initialRtoMs := q.initialRtoMs
  maxRtoMs := q.maxRtoMs
  maxRetransmissions := q.maxRetransmissions
  currentRtoMs := q.currentRtoMs
  timeoutRetransmissions := q.timeoutRetransmissions
  persist := q.persist
  closed := q.closed
  exhausted := q.exhausted

@[simp] theorem armTimer_budget (q : RetransmissionQueue) : q.armTimer.budget = q.budget := by
  unfold armTimer
  split <;> rfl

@[simp] theorem clearTimer_budget (q : RetransmissionQueue) : q.clearTimer.budget = q.budget := rfl

theorem track_budget {q q' : RetransmissionQueue} {sent : SentSegment} {added : Bool}
    (htrack : q.track sent = .ok (q', added)) : q'.budget = q.budget := by
  obtain ⟨-, he⟩ | ⟨-, -, -, he⟩ | ⟨-, -, -, -, he⟩ | ⟨-, -, -, -, he⟩ := track_cases q sent
  all_goals rw [he] at htrack
  all_goals cases htrack
  · rfl
  · split
    · exact armTimer_budget _
    · rfl

/-- What `track` and `close` can do to the budget: nothing, or shut it. -/
def Settles (b b' : Budget) : Prop := b' = b ∨ b.closed = false ∧ b' = b.shut

theorem Settles.same {b b' : Budget} (h : Settles b b') (hopen : b'.closed = false) : b' = b := by
  rcases h with hsame | ⟨-, rfl⟩
  · exact hsame
  · cases hopen

theorem Settles.uncount {q r : RetransmissionQueue} (h : Settles q.countTimeout.budget r.budget) :
    Settles q.budget { r with timeoutRetransmissions := r.timeoutRetransmissions - 1 }.budget := by
  have hcount : { r with timeoutRetransmissions := r.timeoutRetransmissions - 1 }.budget =
      { r.budget with timeoutRetransmissions := r.budget.timeoutRetransmissions - 1 } := rfl
  rw [hcount]
  rcases h with hsame | ⟨hopen, hshut⟩
  · rw [hsame]
    exact .inl rfl
  · rw [hshut]
    exact .inr ⟨hopen, rfl⟩

theorem close_budget (q : RetransmissionQueue) : Settles q.budget q.close.budget := by
  unfold close
  split
  · exact .inl rfl
  · rename_i hopen
    have hfalse : q.closed = false := by simpa using hopen
    exact .inr ⟨hfalse, rfl⟩

/-- A callback that calls back into the queue can only track or close. -/
theorem Reentrant.budget {q r : RetransmissionQueue} (hr : q.Reentrant r) :
    Settles q.budget r.budget := by
  induction hr with
  | refl => exact .inl rfl
  | track _ htrack ih =>
      rw [track_budget htrack]
      exact ih
  | @close r _ ih =>
      rcases ih with hsame | ⟨hopen, hshut⟩
      · rw [← hsame]
        exact close_budget r
      · refine .inr ⟨hopen, ?_⟩
        rcases close_budget r with hkept | ⟨hstill, -⟩
        · rw [hkept, hshut]
        · rw [hshut] at hstill
          cases hstill

/-- The same callbacks, recording their calls in the owner's state. -/
def recording {σ : Type} (cb : LawfulCallbacks σ) : LawfulCallbacks (σ × List Entry) where
  onRetransmit q owner segment reason :=
    let called := cb.onRetransmit q owner.1 segment reason
    (called.1, (called.2.1, noteClose q.closed called.1.closed
      (.retransmitted reason called.2.2 :: owner.2)), called.2.2)
  onPersistProbe q owner segment :=
    let called := cb.onPersistProbe q owner.1 segment
    (called.1, (called.2.1, noteClose q.closed called.1.closed
      (.probed called.2.2 :: owner.2)), called.2.2)
  onExhausted q owner error segment :=
    let called := cb.onExhausted q owner.1 error segment
    (called.1, (called.2, noteClose q.closed called.1.closed
      (.exhausted error q.persist :: owner.2)))
  onRetransmit_reentrant q owner segment reason := cb.onRetransmit_reentrant q owner.1 segment reason
  onPersistProbe_reentrant q owner segment := cb.onPersistProbe_reentrant q owner.1 segment
  onExhausted_reentrant q owner error segment :=
    cb.onExhausted_reentrant q owner.1 error segment

end RetransmissionQueue

open RetransmissionQueue

/-- Why giving up with `error` was right after `before`: the whole budget had
been used in the current mode, or the callback called last threw. -/
def Justified (budget : Nat) (error : Exhaustion) (persist : Bool) (before : List Entry) : Prop :=
  match error with
  | .probeLimit => persist = true ∧ (sinceRenewal before).countP Entry.isProbe = budget
  | .retransmissionLimit =>
    persist = false ∧ (sinceRenewal before).countP Entry.isTimeout = budget
  | .callbackThrew => ∃ entry ∈ before.head?, entry.threw = true

/-- The record explains the fields, and the queue has been quiet since it gave
up. -/
structure Traced (b : Budget) (record : List Entry) : Prop where
  initial_le : b.initialRtoMs ≤ b.currentRtoMs
  le_max : b.currentRtoMs ≤ b.maxRtoMs
  within : b.timeoutRetransmissions ≤ b.maxRetransmissions
  spent : b.timeoutRetransmissions = attempts record
  mode : b.closed = false → ∀ entry ∈ sinceRenewal record,
    (entry.isTimeout = true → b.persist = false) ∧ (entry.isProbe = true → b.persist = true)
  final : (∃ entry ∈ record, entry.isFinal = true) ↔ b.closed = true ∨ b.exhausted = true
  quiet : record.Pairwise fun newer older => older.isFinal = true → newer.isCall = false
  justified : ∀ error persist before, Entry.exhausted error persist :: before <:+ record →
    Justified b.maxRetransmissions error persist before

namespace Traced

variable {b b' : Budget} {record : List Entry}

theorem not_final (h : Traced b record) (hopen : b.closed = false)
    (hlive : b.exhausted = false) : ∀ entry ∈ record, entry.isFinal = false := by
  intro entry hmem
  by_contra hfinal
  rcases h.final.mp ⟨entry, hmem, by simpa using hfinal⟩ with hshut | hdone
  · rw [hopen] at hshut
    cases hshut
  · rw [hlive] at hdone
    cases hdone

/-- Another RTO within the range is no event of the record. -/
theorem withRto (h : Traced b record) {rto : Nat} (hlow : b.initialRtoMs ≤ rto)
    (hhigh : rto ≤ b.maxRtoMs) : Traced { b with currentRtoMs := rto } record where
  initial_le := hlow
  le_max := hhigh
  within := h.within
  spent := h.spent
  mode := h.mode
  final := h.final
  quiet := h.quiet
  justified := h.justified

theorem initial_le_max (h : Traced b record) : b.initialRtoMs ≤ b.maxRtoMs :=
  Nat.le_trans h.initial_le h.le_max

/-- An entry that is no call and leaves the budget as it was. -/
theorem note (h : Traced b record) {entry : Entry} (hcall : entry.isCall = false)
    (hfinal : entry.isFinal = false) (hrenews : entry.renews = false) :
    Traced b (entry :: record) := by
  have hkind : entry.isTimeout = false ∧ entry.isProbe = false ∧ entry.isExhausted = false := by
    cases entry <;> simp [Entry.isCall] at hcall <;> exact ⟨rfl, rfl, rfl⟩
  refine ⟨h.initial_le, h.le_max, h.within, ?_, ?_, ?_, ?_, ?_⟩
  · rw [attempts_cons, hrenews, hkind.1, hkind.2.1]
    exact h.spent
  · intro hopen e hmem
    rw [sinceRenewal_cons, hrenews] at hmem
    rcases List.mem_cons.mp hmem with rfl | hmem
    · rw [hkind.1, hkind.2.1]
      exact ⟨nofun, nofun⟩
    · exact h.mode hopen e hmem
  · rw [← h.final]
    simp [hfinal]
  · exact List.pairwise_cons.mpr ⟨fun _ _ _ => hcall, h.quiet⟩
  · intro error persist before hsuffix
    rcases List.suffix_cons_iff.mp hsuffix with heq | hold
    · rw [← (List.cons.inj heq).1] at hkind
      cases hkind.2.2
    · exact h.justified error persist before hold

/-- An entry that renews the budget, perhaps in another mode. -/
theorem renew (h : Traced b record) {entry : Entry} (hcall : entry.isCall = false)
    (hfinal : entry.isFinal = false) (hrenews : entry.renews = true) (persist : Bool) :
    Traced { b with timeoutRetransmissions := 0, persist } (entry :: record) := by
  have hkind : entry.isExhausted = false := by
    cases entry <;> simp [Entry.isCall] at hcall <;> rfl
  refine ⟨h.initial_le, h.le_max, Nat.zero_le _, ?_, ?_, ?_, ?_, ?_⟩
  · rw [attempts_cons, hrenews]
    rfl
  · intro _ e hmem
    rw [sinceRenewal_cons, hrenews] at hmem
    cases hmem
  · rw [← h.final]
    simp [hfinal]
  · exact List.pairwise_cons.mpr ⟨fun _ _ _ => hcall, h.quiet⟩
  · intro error persist before hsuffix
    rcases List.suffix_cons_iff.mp hsuffix with heq | hold
    · rw [← (List.cons.inj heq).1] at hkind
      cases hkind
    · exact h.justified error persist before hold

/-- A retransmission or a probe of a live queue, counted when it is an attempt. -/
theorem call (h : Traced b record) (hopen : b.closed = false) (hlive : b.exhausted = false)
    {entry : Entry} (hfinal : entry.isFinal = false) (hrenews : entry.renews = false)
    (htimeout : entry.isTimeout = true → b.persist = false)
    (hprobe : entry.isProbe = true → b.persist = true) {count : Nat}
    (hcount : count = b.timeoutRetransmissions +
      if entry.isTimeout || entry.isProbe then 1 else 0)
    (hwithin : count ≤ b.maxRetransmissions) :
    Traced { b with timeoutRetransmissions := count } (entry :: record) := by
  refine ⟨h.initial_le, h.le_max, hwithin, ?_, ?_, ?_, ?_, ?_⟩
  · rw [attempts_cons, hrenews, ← h.spent]
    exact hcount
  · intro _ e hmem
    rw [sinceRenewal_cons, hrenews] at hmem
    rcases List.mem_cons.mp hmem with rfl | hmem
    · exact ⟨htimeout, hprobe⟩
    · exact h.mode hopen e hmem
  · rw [← h.final]
    simp [hfinal]
  · refine List.pairwise_cons.mpr ⟨fun e hmem hold => ?_, h.quiet⟩
    rw [h.not_final hopen hlive e hmem] at hold
    cases hold
  · intro error persist before hsuffix
    rcases List.suffix_cons_iff.mp hsuffix with heq | hold
    · rw [← (List.cons.inj heq).1] at hfinal
      cases hfinal
    · exact h.justified error persist before hold

/-- A call that is no attempt, such as a fast retransmission. -/
theorem uncounted (h : Traced b record) (hopen : b.closed = false) (hlive : b.exhausted = false)
    {entry : Entry} (hfinal : entry.isFinal = false) (hrenews : entry.renews = false)
    (htimeout : entry.isTimeout = false) (hprobe : entry.isProbe = false) :
    Traced b (entry :: record) := by
  refine h.call hopen hlive hfinal hrenews ?_ ?_ ?_ h.within
  · rw [htimeout]
    nofun
  · rw [hprobe]
    nofun
  · rw [htimeout, hprobe]
    rfl

/-- The call that reports a live queue as exhausted. -/
theorem giveUp (h : Traced b record) (hopen : b.closed = false) (hlive : b.exhausted = false)
    {error : Exhaustion} (hjust : Justified b.maxRetransmissions error b.persist record) :
    Traced { b with exhausted := true } (.exhausted error b.persist :: record) := by
  refine ⟨h.initial_le, h.le_max, h.within, ?_, ?_, ?_, ?_, ?_⟩
  · rw [attempts_cons]
    exact h.spent
  · intro _ e hmem
    rw [sinceRenewal_cons] at hmem
    rcases List.mem_cons.mp hmem with rfl | hmem
    · exact ⟨nofun, nofun⟩
    · exact h.mode hopen e hmem
  · exact ⟨fun _ => .inr rfl, fun _ => ⟨_, List.mem_cons_self, rfl⟩⟩
  · refine List.pairwise_cons.mpr ⟨fun e hmem hold => ?_, h.quiet⟩
    rw [h.not_final hopen hlive e hmem] at hold
    cases hold
  · intro error' persist before hsuffix
    rcases List.suffix_cons_iff.mp hsuffix with heq | hold
    · obtain ⟨hentry, rfl⟩ := List.cons.inj heq
      cases hentry
      exact hjust
    · exact h.justified error' persist before hold

/-- A callback has returned, and may have closed the queue. -/
theorem settle (h : Traced b record) (hsettles : Settles b b') :
    Traced b' (noteClose b.closed b'.closed record) := by
  rcases hsettles with rfl | ⟨hopen, rfl⟩
  · unfold noteClose
    rw [if_neg (by cases b'.closed <;> decide)]
    exact h
  · rw [hopen]
    refine ⟨h.initial_le, h.le_max, h.within, ?_, nofun, ?_, ?_, ?_⟩
    · change _ = attempts (.closed :: record)
      rw [attempts_cons]
      exact h.spent
    · exact ⟨fun _ => .inl rfl, fun _ => ⟨_, List.mem_cons_self, rfl⟩⟩
    · exact List.pairwise_cons.mpr ⟨fun _ _ _ => rfl, h.quiet⟩
    · intro error persist before hsuffix
      rcases List.suffix_cons_iff.mp hsuffix with heq | hold
      · cases (List.cons.inj heq).1
      · exact h.justified error persist before hold

/-- In persist mode every attempt since the last renewal was a probe. -/
theorem probes_eq (h : Traced b record) (hopen : b.closed = false) (hpersist : b.persist = true) :
    (sinceRenewal record).countP Entry.isProbe = b.timeoutRetransmissions := by
  rw [h.spent]
  apply List.countP_congr
  intro entry hmem
  have hnot : entry.isTimeout = false := by
    by_contra htimeout
    have hoff := (h.mode hopen entry hmem).1 (by simpa using htimeout)
    rw [hpersist] at hoff
    cases hoff
  simp [hnot]

/-- Outside persist mode every attempt since the last renewal was an RTO
retransmission. -/
theorem timeouts_eq (h : Traced b record) (hopen : b.closed = false)
    (hpersist : b.persist = false) :
    (sinceRenewal record).countP Entry.isTimeout = b.timeoutRetransmissions := by
  rw [h.spent]
  apply List.countP_congr
  intro entry hmem
  have hnot : entry.isProbe = false := by
    by_contra hprobe
    have hon := (h.mode hopen entry hmem).2 (by simpa using hprobe)
    rw [hpersist] at hon
    cases hon
  simp [hnot]

end Traced

namespace RetransmissionQueue

variable {σ : Type} (cb : CarefulCallbacks σ) {q : RetransmissionQueue} {record : List Entry}
  (owner : σ)

theorem exhaust_traced (h : Traced q.budget record) (hopen : q.closed = false)
    (hlive : q.exhausted = false) {error : Exhaustion}
    (hjust : Justified q.maxRetransmissions error q.persist record) :
    Traced (exhaust (recording cb.toLawfulCallbacks).toCallbacks q (owner, record) error).1.budget
      (exhaust (recording cb.toLawfulCallbacks).toCallbacks q (owner, record) error).2.2 := by
  have hcalled := h.giveUp hopen hlive hjust
  have hreturned := (cb.onExhausted_reentrant { q with exhausted := true }.clearTimer owner error
    (oldest { q with exhausted := true }.clearTimer)).budget
  exact hcalled.settle hreturned

/-- `hcalled` is the record and the budget at the moment of the call. -/
theorem emitRetransmission_traced (reason : Reason) (hopen : q.closed = false)
    (hlive : q.exhausted = false)
    (hcalled : ∀ threw, Traced q.budget (.retransmitted reason threw :: record)) :
    Traced (emitRetransmission (recording cb.toLawfulCallbacks).toCallbacks q (owner, record)
        reason).1.budget
      (emitRetransmission (recording cb.toLawfulCallbacks).toCallbacks q (owner, record)
        reason).2.1.2 := by
  have hreturned := (cb.onRetransmit_reentrant q owner q.oldest reason).budget
  have hsettled := (hcalled (cb.onRetransmit q owner q.oldest reason).2.2).settle hreturned
  unfold emitRetransmission
  split <;> rename_i heq
  · obtain ⟨rfl, rfl, -⟩ := by simpa [recording] using heq
    exact hsettled
  · obtain ⟨rfl, rfl, hthrew⟩ := by simpa [recording] using heq
    have hstill := cb.onRetransmit_open q owner q.oldest reason hopen hthrew
    have hsame := hreturned.same hstill
    have hentry := hcalled true
    rw [← hsame] at hentry
    rw [hthrew, hstill, noteClose, if_neg (by simp)]
    refine exhaust_traced cb _ hentry hstill ?_ ⟨_, rfl, rfl⟩
    exact (congrArg Budget.exhausted hsame).trans hlive

/-- A fast retransmission is recorded, and no attempt. -/
theorem fastRetransmit_traced (h : Traced q.budget record) :
    Traced (fastRetransmit (recording cb.toLawfulCallbacks).toCallbacks q (owner, record)).1.budget
      (fastRetransmit (recording cb.toLawfulCallbacks).toCallbacks q (owner, record)).2.1.2 := by
  unfold fastRetransmit
  split
  · exact h
  · rename_i hready
    simp only [Bool.or_eq_true, not_or, Bool.not_eq_true] at hready
    have hstart := h.withRto (Nat.le_refl _) h.initial_le_max
    have hemit := emitRetransmission_traced cb owner
      (q := { q with currentRtoMs := q.initialRtoMs }.clearTimer) .fast hready.1.2 hready.2
      fun threw => hstart.uncounted hready.1.2 hready.2 rfl rfl rfl rfl
    dsimp only
    split <;> rename_i heq <;> rw [heq] at hemit
    · exact hemit
    · rw [armTimer_budget]
      exact hemit

/-- The record when `setPersist` starts its work. -/
def noteSwitch (q : RetransmissionQueue) (enabled : Bool) (record : List Entry) : List Entry :=
  if q.closed || q.exhausted || q.persist == enabled then record else .switched enabled :: record

/-- A change of mode renews the budget, and may end in a retransmission. -/
theorem setPersist_traced (h : Traced q.budget record) (enabled : Bool) :
    Traced (setPersist (recording cb.toLawfulCallbacks).toCallbacks q
        (owner, q.noteSwitch enabled record) enabled).1.budget
      (setPersist (recording cb.toLawfulCallbacks).toCallbacks q
        (owner, q.noteSwitch enabled record) enabled).2.2 := by
  unfold setPersist noteSwitch
  split
  · exact h
  · rename_i hready
    simp only [Bool.or_eq_true, not_or, Bool.not_eq_true] at hready
    have hswitched : Traced (q.switchPersist enabled).budget (.switched enabled :: record) :=
      (h.withRto (Nat.le_refl _) h.initial_le_max).renew rfl rfl rfl enabled
    dsimp only
    split
    · rw [armTimer_budget]
      exact emitRetransmission_traced cb owner .windowOpen hready.1.1 hready.1.2
        fun threw => hswitched.uncounted hready.1.1 hready.1.2 rfl rfl rfl rfl
    · rw [armTimer_budget]
      exact hswitched

theorem backOff_traced (h : Traced q.budget record) : Traced q.backOff.budget record := by
  unfold backOff
  rw [armTimer_budget]
  refine h.withRto (Nat.le_min.mpr ⟨?_, h.initial_le_max⟩) (Nat.min_le_right _ _)
  exact Nat.le_trans h.initial_le (Nat.le_mul_of_pos_right _ (by decide))

/-- A timeout in persist mode: it gives up, or probes and counts the probe if
the transport took it. -/
theorem handleProbeTimeout_traced (h : Traced q.budget record) (hopen : q.closed = false)
    (hlive : q.exhausted = false) (hpersist : q.persist = true) :
    Traced (handleProbeTimeout (recording cb.toLawfulCallbacks).toCallbacks q
        (owner, record)).1.budget
      (handleProbeTimeout (recording cb.toLawfulCallbacks).toCallbacks q (owner, record)).2.2 := by
  unfold handleProbeTimeout
  split
  · rename_i hfull
    refine exhaust_traced cb owner h hopen hlive ⟨hpersist, ?_⟩
    rw [h.probes_eq hopen hpersist]
    exact Nat.le_antisymm h.within hfull
  · rename_i hleft
    have hreturned := (cb.onPersistProbe_reentrant q.countTimeout owner q.oldest).budget
    have hcalled : ∀ result, result ≠ .refused →
        Traced q.countTimeout.budget (.probed result :: record) := by
      intro result hresult
      refine h.call hopen hlive rfl ?_ ?_ (fun _ => hpersist) ?_ (Nat.lt_of_not_le hleft)
      all_goals cases result
      all_goals first | rfl | exact absurd rfl hresult | nofun
    split <;> rename_i heq
    · obtain ⟨rfl, rfl, hresult⟩ := by simpa [recording] using heq
      rw [hresult]
      apply backOff_traced
      rw [clearTimer_budget]
      exact (hcalled .returned (by decide)).settle hreturned
    · obtain ⟨rfl, rfl, hresult⟩ := by simpa [recording] using heq
      rw [hresult]
      apply backOff_traced
      rw [clearTimer_budget]
      -- The attempt counted before the call is taken back, so the entry counts nothing.
      have hentry : Traced q.budget (.probed .refused :: record) :=
        h.uncounted hopen hlive rfl rfl rfl rfl
      exact hentry.settle hreturned.uncount
    · obtain ⟨rfl, rfl, hresult⟩ := by simpa [recording] using heq
      have hstill := cb.onPersistProbe_open q.countTimeout owner q.oldest hopen hresult
      have hsame := hreturned.same hstill
      have hentry := hcalled .threw (by decide)
      rw [← hsame] at hentry
      rw [hresult, hstill, noteClose, if_neg (by simp)]
      refine exhaust_traced cb _ hentry hstill ?_ ⟨_, rfl, rfl⟩
      exact (congrArg Budget.exhausted hsame).trans hlive

/-- A timeout outside persist mode: it gives up, or retransmits and counts it. -/
theorem handleRetransmissionTimeout_traced (h : Traced q.budget record) (hopen : q.closed = false)
    (hlive : q.exhausted = false) (hpersist : q.persist = false) :
    Traced (handleRetransmissionTimeout (recording cb.toLawfulCallbacks).toCallbacks q
        (owner, record)).1.budget
      (handleRetransmissionTimeout (recording cb.toLawfulCallbacks).toCallbacks q
        (owner, record)).2.2 := by
  unfold handleRetransmissionTimeout
  split
  · exact h
  split
  · rename_i hfull
    refine exhaust_traced cb owner h hopen hlive ⟨hpersist, ?_⟩
    rw [h.timeouts_eq hopen hpersist]
    exact Nat.le_antisymm h.within hfull
  · rename_i hleft
    have hcalled : ∀ threw, Traced q.countTimeout.budget
        (.retransmitted .timeout threw :: record) := fun threw =>
      h.call hopen hlive rfl rfl (fun _ => hpersist) (fun hprobe => by cases hprobe) rfl
        (Nat.lt_of_not_le hleft)
    have hemit := emitRetransmission_traced cb owner
      (q := { q.countTimeout with segments := countRetransmission q.segments }) .timeout
      hopen hlive hcalled
    dsimp only
    split <;> rename_i heq <;> rw [heq] at hemit
    · exact hemit
    · exact backOff_traced hemit

/-- A timer that is superseded leaves no entry; the current one is a timeout. -/
theorem fireTimer_traced (h : Traced q.budget record) (generation : Nat) :
    Traced (fireTimer (recording cb.toLawfulCallbacks).toCallbacks q
        (owner, record) generation).1.budget
      (fireTimer (recording cb.toLawfulCallbacks).toCallbacks q
        (owner, record) generation).2.2 := by
  unfold fireTimer
  dsimp only
  split
  · exact h
  · rename_i hcurrent
    simp only [ne_eq, not_or, Bool.not_eq_true, Decidable.not_not] at hcurrent
    obtain ⟨-, hopen, hlive⟩ := hcurrent
    unfold handleTimeout
    rw [if_neg (by simp [hopen, hlive])]
    split
    · rename_i hpersist
      exact handleProbeTimeout_traced cb owner h hopen hlive hpersist
    · rename_i hpersist
      exact handleRetransmissionTimeout_traced cb owner h hopen hlive (by simpa using hpersist)

/-- An acknowledgement is recorded with its status and renews the budget
accordingly. -/
theorem acknowledge_traced {q' : RetransmissionQueue} {ack : Seq} {result : AckResult}
    (h : Traced q.budget record) (hack : q.acknowledge ack = .ok (q', result)) :
    Traced q'.budget (.acknowledged result.status q.persist :: record) := by
  obtain ⟨rfl, hadvanced, hduplicate⟩ | ⟨rfl, hstatus, hpersist⟩ |
    ⟨hstatus, -, segments, inFlight, rfl⟩ := acknowledge_cases hack
  · apply h.note rfl rfl
    cases hstatus : result.status
    · rw [hduplicate hstatus]
      rfl
    · rfl
    · rfl
    · exact absurd hstatus hadvanced
  · rw [hstatus, hpersist]
    exact h.renew rfl rfl rfl true
  · rw [hstatus, armTimer_budget]
    have hrto : q.initialRtoMs ≤ (if q.persist then q.currentRtoMs else q.initialRtoMs) ∧
        (if q.persist then q.currentRtoMs else q.initialRtoMs) ≤ q.maxRtoMs := by
      split
      · exact ⟨h.initial_le, h.le_max⟩
      · exact ⟨Nat.le_refl _, h.initial_le_max⟩
    exact (h.withRto hrto.1 hrto.2).renew rfl rfl rfl q.persist

/-- One operation of a recorded run. The owner may do anything between
operations, so each starts from any state of it. -/
inductive TracedStep (cb : CarefulCallbacks σ) :
    RetransmissionQueue × List Entry → Operation → RetransmissionQueue × List Entry → Prop
  | track {q q' : RetransmissionQueue} {record : List Entry} {sent : SentSegment} {added : Bool} :
      q.track sent = .ok (q', added) → TracedStep cb (q, record) (.track sent) (q', record)
  | trackThrows {q : RetransmissionQueue} {record : List Entry} {sent : SentSegment}
      {error : QueueError} :
      q.track sent = .error error → TracedStep cb (q, record) (.track sent) (q, record)
  | acknowledge {q q' : RetransmissionQueue} {record : List Entry} {ack : Seq}
      {result : AckResult} : q.acknowledge ack = .ok (q', result) →
      TracedStep cb (q, record) (.acknowledge ack)
        (q', .acknowledged result.status q.persist :: record)
  | acknowledgeThrows {q : RetransmissionQueue} {record : List Entry} {ack : Seq}
      {error : QueueError} :
      q.acknowledge ack = .error error → TracedStep cb (q, record) (.acknowledge ack) (q, record)
  | fastRetransmit {q : RetransmissionQueue} {record : List Entry} (owner : σ) :
      TracedStep cb (q, record) .fastRetransmit
        ((fastRetransmit (recording cb.toLawfulCallbacks).toCallbacks q (owner, record)).1,
          (fastRetransmit (recording cb.toLawfulCallbacks).toCallbacks q (owner, record)).2.1.2)
  | setPersist {q : RetransmissionQueue} {record : List Entry} (owner : σ) (enabled : Bool) :
      TracedStep cb (q, record) (.setPersist enabled)
        ((setPersist (recording cb.toLawfulCallbacks).toCallbacks q
            (owner, q.noteSwitch enabled record) enabled).1,
          (setPersist (recording cb.toLawfulCallbacks).toCallbacks q
            (owner, q.noteSwitch enabled record) enabled).2.2)
  | fireTimer {q : RetransmissionQueue} {record : List Entry} (owner : σ) {generation : Nat} :
      generation ∈ q.scheduled →
      TracedStep cb (q, record) (.fireTimer generation)
        ((fireTimer (recording cb.toLawfulCallbacks).toCallbacks q (owner, record) generation).1,
          (fireTimer (recording cb.toLawfulCallbacks).toCallbacks q
            (owner, record) generation).2.2)
  | close {q : RetransmissionQueue} {record : List Entry} :
      TracedStep cb (q, record) .close (q.close, noteClose q.closed q.close.closed record)

theorem step_traced {cb : CarefulCallbacks σ} {s t : RetransmissionQueue × List Entry}
    {op : Operation} (h : Traced s.1.budget s.2) (hstep : TracedStep cb s op t) :
    Traced t.1.budget t.2 := by
  cases hstep with
  | track htrack =>
      rw [track_budget htrack]
      exact h
  | trackThrows _ => exact h
  | acknowledge hack => exact acknowledge_traced h hack
  | acknowledgeThrows _ => exact h
  | fastRetransmit owner => exact fastRetransmit_traced cb owner h
  | setPersist owner enabled => exact setPersist_traced cb owner h enabled
  | fireTimer owner _ => exact fireTimer_traced cb owner h _
  | close => exact h.settle (close_budget _)

/-- `q` with this record can be reached from a queue the constructor accepts. -/
def Recorded (cb : CarefulCallbacks σ) (q : RetransmissionQueue) (record : List Entry) : Prop :=
  ∃ isn initialRtoMs maxRtoMs maxRetransmissions,
    0 < initialRtoMs ∧ initialRtoMs ≤ maxRtoMs ∧ 1 ≤ maxRetransmissions ∧
      Transition.Reaches (TracedStep cb)
        (new isn initialRtoMs maxRtoMs maxRetransmissions, []) (q, record)

theorem new_traced (isn : Seq) {initialRtoMs maxRtoMs : Nat} (maxRetransmissions : Nat)
    (hrange : initialRtoMs ≤ maxRtoMs) :
    Traced (new isn initialRtoMs maxRtoMs maxRetransmissions).budget [] where
  initial_le := Nat.le_refl _
  le_max := hrange
  within := Nat.zero_le _
  spent := rfl
  mode := fun _ _ hmem => by cases hmem
  final := by simp [budget, new]
  quiet := List.Pairwise.nil
  justified := fun _ _ _ hsuffix => by
    have hnil := List.suffix_nil.mp hsuffix
    cases hnil

theorem Recorded.traced {cb : CarefulCallbacks σ} (h : Recorded cb q record) :
    Traced q.budget record := by
  obtain ⟨isn, initial, most, limit, -, hrange, -, hreach⟩ := h
  exact hreach.invariant (P := fun s => Traced s.1.budget s.2)
    (fun _ _ _ hs hstep => step_traced hs hstep) (new_traced isn limit hrange)

section Erasure

variable (lawful : LawfulCallbacks σ) (p : RetransmissionQueue) (entries : List Entry)

theorem emitRetransmission_recording {p p' : RetransmissionQueue} {owner' : σ} {reason : Reason}
    {sent : Bool} (hemit : emitRetransmission lawful.toCallbacks p owner reason = (p', owner', sent)) :
    ∃ entries', emitRetransmission (recording lawful).toCallbacks p (owner, entries) reason =
      (p', (owner', entries'), sent) := by
  unfold emitRetransmission at hemit ⊢
  rcases hcall : lawful.onRetransmit p owner p.oldest reason with ⟨r, o, threw⟩
  dsimp only [recording]
  rw [hcall] at hemit ⊢
  cases threw <;> cases hemit <;> exact ⟨_, rfl⟩

theorem fastRetransmit_recording :
    (fastRetransmit (recording lawful).toCallbacks p (owner, entries)).1 =
      (fastRetransmit lawful.toCallbacks p owner).1 := by
  unfold fastRetransmit
  split
  · rfl
  · rcases hemit : emitRetransmission lawful.toCallbacks
      { p with currentRtoMs := p.initialRtoMs }.clearTimer owner .fast with ⟨p', owner', sent⟩
    obtain ⟨entries', hrecorded⟩ := emitRetransmission_recording owner lawful entries hemit
    dsimp only
    rw [hrecorded, hemit]
    cases sent <;> rfl

theorem setPersist_recording (enabled : Bool) :
    (setPersist (recording lawful).toCallbacks p (owner, entries) enabled).1 =
      (setPersist lawful.toCallbacks p owner enabled).1 := by
  unfold setPersist
  split
  · rfl
  · rcases hemit : emitRetransmission lawful.toCallbacks (p.switchPersist enabled) owner
      .windowOpen with ⟨p', owner', sent⟩
    obtain ⟨entries', hrecorded⟩ := emitRetransmission_recording owner lawful entries hemit
    dsimp only
    rw [hrecorded, hemit]
    split <;> rfl

theorem handleProbeTimeout_recording :
    (handleProbeTimeout (recording lawful).toCallbacks p (owner, entries)).1 =
      (handleProbeTimeout lawful.toCallbacks p owner).1 := by
  unfold handleProbeTimeout
  split
  · rfl
  · dsimp only [recording]
    rcases lawful.onPersistProbe p.countTimeout owner p.oldest with ⟨p', owner', result⟩
    cases result <;> rfl

/-- Recording does not change what happens to the queue. -/
theorem handleRetransmissionTimeout_recording :
    (handleRetransmissionTimeout (recording lawful).toCallbacks p (owner, entries)).1 =
      (handleRetransmissionTimeout lawful.toCallbacks p owner).1 := by
  unfold handleRetransmissionTimeout
  split
  · rfl
  split
  · rfl
  · rcases hemit : emitRetransmission lawful.toCallbacks
      { p.countTimeout with segments := countRetransmission p.segments } owner .timeout with
      ⟨p', owner', sent⟩
    obtain ⟨entries', hrecorded⟩ := emitRetransmission_recording owner lawful entries hemit
    dsimp only
    rw [hrecorded, hemit]
    cases sent <;> rfl

theorem fireTimer_recording (generation : Nat) :
    (fireTimer (recording lawful).toCallbacks p (owner, entries) generation).1 =
      (fireTimer lawful.toCallbacks p owner generation).1 := by
  unfold fireTimer
  dsimp only
  split
  · rfl
  · unfold handleTimeout
    split
    · rfl
    split
    · exact handleProbeTimeout_recording owner lawful _ entries
    · exact handleRetransmissionTimeout_recording owner lawful _ entries

end Erasure

/-- Every step of a queue is a step of its recorded runs. -/
theorem exists_tracedStep {cb : CarefulCallbacks σ} {s t : RetransmissionQueue × σ} {op : Operation}
    (hstep : Step cb.toLawfulCallbacks s op t) (record : List Entry) :
    ∃ record', TracedStep cb (s.1, record) op (t.1, record') := by
  cases hstep with
  | track htrack => exact ⟨_, .track htrack⟩
  | trackThrows hthrows => exact ⟨_, .trackThrows hthrows⟩
  | acknowledge hack => exact ⟨_, .acknowledge hack⟩
  | acknowledgeThrows hthrows => exact ⟨_, .acknowledgeThrows hthrows⟩
  | @fastRetransmit q owner =>
      refine ⟨(fastRetransmit (recording cb.toLawfulCallbacks).toCallbacks q
        (owner, record)).2.1.2, ?_⟩
      rw [← fastRetransmit_recording owner cb.toLawfulCallbacks q record]
      exact .fastRetransmit owner
  | @setPersist q owner enabled =>
      refine ⟨(setPersist (recording cb.toLawfulCallbacks).toCallbacks q
        (owner, q.noteSwitch enabled record) enabled).2.2, ?_⟩
      rw [← setPersist_recording owner cb.toLawfulCallbacks q (q.noteSwitch enabled record)]
      exact .setPersist owner enabled
  | @fireTimer q owner generation hmem =>
      refine ⟨(fireTimer (recording cb.toLawfulCallbacks).toCallbacks q
        (owner, record) generation).2.2, ?_⟩
      rw [← fireTimer_recording owner cb.toLawfulCallbacks q record]
      exact .fireTimer owner hmem
  | close => exact ⟨_, .close⟩

/-- If of any two elements only the first can count, there is one at most. -/
theorem countP_le_one {α : Type} {p : α → Bool} {xs : List α}
    (h : xs.Pairwise fun x y => p y = true → p x = false) : xs.countP p ≤ 1 := by
  induction h with
  | nil => exact Nat.zero_le _
  | @cons x xs hx _ ih =>
      rw [List.countP_cons]
      by_cases hp : p x = true
      · have hnone : xs.countP p = 0 := by
          rw [List.countP_eq_zero]
          intro y hy hpy
          rw [hx y hy hpy] at hp
          cases hp
        rw [hnone, if_pos hp]
      · rw [if_neg hp]
        exact ih

/-- In every recorded run: `onExhausted` is called at most once; without a throw
it is called only when the whole budget has been used in the current mode since
it was last renewed; stale and future ACKs change nothing; the RTO and the count
stay in their ranges; and no callback is called once the queue is closed or
exhausted. -/
theorem exhaustion_sound {cb : CarefulCallbacks σ} (h : Recorded cb q record) :
    record.countP Entry.isExhausted ≤ 1 ∧
    (∀ error persist before, Entry.exhausted error persist :: before <:+ record →
      (∀ entry ∈ before, entry.threw = false) →
      (sinceRenewal before).countP (if persist then Entry.isProbe else Entry.isTimeout) =
        q.maxRetransmissions) ∧
    (∀ ack q' result, q.acknowledge ack = .ok (q', result) →
      result.status = .stale ∨ result.status = .future → q' = q) ∧
    (q.initialRtoMs ≤ q.currentRtoMs ∧ q.currentRtoMs ≤ q.maxRtoMs) ∧
    (q.timeoutRetransmissions = attempts record ∧
      q.timeoutRetransmissions ≤ q.maxRetransmissions) ∧
    ((∃ entry ∈ record, entry.isFinal = true) ↔ q.closed = true ∨ q.exhausted = true) ∧
    record.Pairwise (fun newer older => older.isFinal = true → newer.isCall = false) := by
  have htraced := h.traced
  refine ⟨?_, ?_, ?_, ⟨htraced.initial_le, htraced.le_max⟩, ⟨htraced.spent, htraced.within⟩,
    htraced.final, htraced.quiet⟩
  · apply countP_le_one
    refine htraced.quiet.imp fun {newer older} hquiet hold => ?_
    have hcall : newer.isCall = false := hquiet (by cases older <;> simp_all [Entry.isExhausted,
      Entry.isFinal])
    cases newer <;> simp_all [Entry.isExhausted, Entry.isCall]
  · intro error persist before hsuffix hquiet
    have hjust := htraced.justified error persist before hsuffix
    cases error with
    | probeLimit =>
        rw [hjust.1]
        exact hjust.2
    | retransmissionLimit =>
        rw [hjust.1]
        exact hjust.2
    | callbackThrew =>
        obtain ⟨entry, hhead, hthrew⟩ := hjust
        rw [hquiet entry (List.mem_of_mem_head? hhead)] at hthrew
        cases hthrew
  · intro ack q' result hack hstatus
    obtain ⟨rfl, -⟩ | ⟨-, hduplicate, -⟩ | ⟨hadvanced, -⟩ := acknowledge_cases hack
    · rfl
    · rw [hduplicate] at hstatus
      rcases hstatus with hs | hs <;> cases hs
    · rw [hadvanced] at hstatus
      rcases hstatus with hs | hs <;> cases hs

/-- Callbacks that never throw, and leave queue and owner alone. -/
def quietCareful : CarefulCallbacks Unit where
  toLawfulCallbacks := quietCallbacks
  onRetransmit_open _ _ _ _ hopen _ := hopen
  onPersistProbe_open _ _ _ hopen _ := hopen

/-- With a budget of one, the second timeout of an unacknowledged byte gives up. -/
theorem exhaustion_sound_silent :
    ∃ (q : RetransmissionQueue) (record : List Entry),
      record = [.exhausted .retransmissionLimit false, .retransmitted .timeout false] ∧
      record.countP Entry.isExhausted ≤ 1 ∧
      (sinceRenewal [.retransmitted .timeout false]).countP Entry.isTimeout =
        q.maxRetransmissions := by
  let q₀ := new 100#32 1000 60000 1
  let q₁ := (q₀.append { seq := 100#32, payload := [7] }).armTimer
  let s₂ := fireTimer (recording quietCallbacks).toCallbacks q₁ ((), []) 1
  let s₃ := fireTimer (recording quietCallbacks).toCallbacks s₂.1 ((), s₂.2.2) 2
  have htrack : q₀.track { seq := 100#32, payload := [7] } = .ok (q₁, true) := rfl
  have hfirst : TracedStep quietCareful (q₁, []) (.fireTimer 1) (s₂.1, s₂.2.2) :=
    .fireTimer () (by decide)
  have hsecond : TracedStep quietCareful (s₂.1, s₂.2.2) (.fireTimer 2) (s₃.1, s₃.2.2) :=
    .fireTimer () (by decide)
  have hrecorded : Recorded quietCareful s₃.1 s₃.2.2 :=
    ⟨100#32, 1000, 60000, 1, by decide, by decide, by decide, [.track _, .fireTimer 1, .fireTimer 2],
      .snoc (.snoc (.single (.track htrack)) hfirst) hsecond⟩
  have hrecord : s₃.2.2 = [.exhausted .retransmissionLimit false, .retransmitted .timeout false] :=
    by decide
  have hsound := exhaustion_sound hrecorded
  refine ⟨s₃.1, s₃.2.2, hrecord, hsound.1, ?_⟩
  refine hsound.2.1 .retransmissionLimit false _ ?_ (by decide)
  rw [hrecord]

end RetransmissionQueue

end RootlessRelay
