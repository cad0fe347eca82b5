import RootlessRelay.Library.SlidingLog
import RootlessRelay.RateLimiter

/-!
# The rate limiter is a sliding log

`SlidingWindowRateLimiter` merges what it accepts in one millisecond, drops
expired entries lazily from the front and moves the rest to the front of its
array now and then. None of this shows: along every sequence of calls it answers
as the log of all accepted requests does.

The proof is a simulation. `Represents` relates a limiter to a log that was
never cut, at a time the clock has reached, and every call keeps it and gives
the same answer. The clock may stand still between calls but must not go back:
the source measures with the wall clock, so this is a hypothesis of the theorem
and named as such (`Clocked`).
-/

namespace RootlessRelay

open SlidingLog

/-- A call of the limiter, at the time the source would read off the clock. -/
inductive LimiterCall
  | tryConsume (now bytes : Nat)
  | usage (now : Nat)
  deriving DecidableEq, Repr

/-- The time of a call. -/
def LimiterCall.now : LimiterCall → Nat
  | .tryConsume now _ => now
  | .usage now => now

/-- What a call returns. -/
inductive LimiterAnswer
  | accepted (answer : Bool)
  | usage (bytes : Nat)
  deriving DecidableEq, Repr

namespace SlidingWindowRateLimiter

/-- `usage`: the bytes of the current window, after expired entries are dropped. -/
def usage (r : SlidingWindowRateLimiter) (now : Nat) : SlidingWindowRateLimiter × Nat :=
  let r := r.prune now
  (r, r.totalBytes)

/-- The limiter after a call, and what the call returns. -/
def call (r : SlidingWindowRateLimiter) : LimiterCall → SlidingWindowRateLimiter × LimiterAnswer
  | .tryConsume now bytes =>
      let (r, answer) := r.tryConsume now bytes
      (r, .accepted answer)
  | .usage now =>
      let (r, bytes) := r.usage now
      (r, .usage bytes)

/-- What a sequence of calls returns, one answer for each. -/
def answers (r : SlidingWindowRateLimiter) : List LimiterCall → List LimiterAnswer
  | [] => []
  | c :: rest => (r.call c).2 :: (r.call c).1.answers rest

/-- The limiter after a sequence of calls. -/
def after (r : SlidingWindowRateLimiter) : List LimiterCall → SlidingWindowRateLimiter
  | [] => r
  | c :: rest => (r.call c).1.after rest

end SlidingWindowRateLimiter

/-- The naive limiter: every accepted request is kept, and a request is accepted
if the bytes accepted in the window that ends now leave room for it. -/
structure NaiveLimiter where
  maxBytes : Nat
  windowMs : Nat
  log : List Entry := []

namespace NaiveLimiter

/-- The naive limiter after a call, and what the call returns. A question about
the usage leaves the log alone. -/
def call (n : NaiveLimiter) : LimiterCall → NaiveLimiter × LimiterAnswer
  | .tryConsume now bytes =>
      let (log, answer) := grant n.maxBytes n.windowMs n.log now bytes
      ({ n with log }, .accepted answer)
  | .usage now => (n, .usage (total n.windowMs n.log now))

/-- What a sequence of calls returns of the naive limiter. -/
def answers (n : NaiveLimiter) : List LimiterCall → List LimiterAnswer
  | [] => []
  | c :: rest => (n.call c).2 :: (n.call c).1.answers rest

/-- The naive limiter after a sequence of calls. -/
def after (n : NaiveLimiter) : List LimiterCall → NaiveLimiter
  | [] => n
  | c :: rest => (n.call c).1.after rest

end NaiveLimiter

namespace SlidingWindowRateLimiter

variable {r : SlidingWindowRateLimiter} {now : Nat}

/-- The entries from `head` on: what is left of the log. -/
def live (r : SlidingWindowRateLimiter) : List LimiterEntry := r.entries.drop r.head

/-- The entry is no longer in the window at `now`. -/
def expired (windowMs now : Nat) (e : LimiterEntry) : Bool := e.timestamp + windowMs ≤ now

/-- Entries as a log, the amounts of one millisecond in one entry. -/
def asLog (entries : List LimiterEntry) : List Entry := entries.map fun e => ⟨e.timestamp, e.bytes⟩

/-- The loop drops the entries that have expired, from the oldest on, and takes
their bytes off the total. -/
theorem pruneLoop_eq (now windowMs head totalBytes : Nat) (entries : List LimiterEntry) :
    pruneLoop now windowMs head totalBytes entries =
      (head + (entries.takeWhile (expired windowMs now)).length,
        totalBytes - ((entries.takeWhile (expired windowMs now)).map LimiterEntry.bytes).sum) := by
  induction entries generalizing head totalBytes with
  | nil => rfl
  | cons e rest ih =>
      unfold pruneLoop
      by_cases h : e.timestamp + windowMs ≤ now
      · have hexpired : expired windowMs now e = true := decide_eq_true h
        rw [if_pos h, ih, List.takeWhile_cons_of_pos hexpired, List.length_cons, List.map_cons,
          List.sum_cons]
        congr 1 <;> omega
      · have hexpired : ¬expired windowMs now e = true := fun hd => h (of_decide_eq_true hd)
        rw [if_neg h, List.takeWhile_cons_of_neg hexpired]
        rfl

/-- What `prune` keeps, whichever of its three ways it takes. Later lemmas use
this and do not look at the array. -/
theorem prune_spec (hhead : r.head ≤ r.entries.length)
    (htotal : r.totalBytes = (r.live.map LimiterEntry.bytes).sum) (now : Nat) :
    (r.prune now).live = r.live.dropWhile (expired r.windowMs now) ∧
      (r.prune now).totalBytes = ((r.prune now).live.map LimiterEntry.bytes).sum ∧
      (r.prune now).maxBytes = r.maxBytes ∧ (r.prune now).windowMs = r.windowMs ∧
      ((r.prune now).head < (r.prune now).entries.length ∨
        (r.prune now).head = 0 ∧ (r.prune now).entries = []) := by
  have hsplit : r.live.takeWhile (expired r.windowMs now) ++
      r.live.dropWhile (expired r.windowMs now) = r.live := List.takeWhile_append_dropWhile
  have hdrop : r.entries.drop
      (r.head + (r.live.takeWhile (expired r.windowMs now)).length) =
        r.live.dropWhile (expired r.windowMs now) := by
    rw [← List.drop_drop]
    change r.live.drop _ = _
    nth_rewrite 2 [← hsplit]
    exact List.drop_left
  have hkept : r.totalBytes -
      ((r.live.takeWhile (expired r.windowMs now)).map LimiterEntry.bytes).sum =
        ((r.live.dropWhile (expired r.windowMs now)).map LimiterEntry.bytes).sum := by
    have hsum := congrArg (fun entries => (entries.map LimiterEntry.bytes).sum) hsplit
    simp only [List.map_append, List.sum_append] at hsum
    omega
  have hlength : r.head + (r.live.takeWhile (expired r.windowMs now)).length ≤
      r.entries.length := by
    have htake := (List.takeWhile_prefix (l := r.live) (expired r.windowMs now)).length_le
    have hlive : r.live.length = r.entries.length - r.head := List.length_drop
    omega
  have hloop : pruneLoop now r.windowMs r.head r.totalBytes (r.entries.drop r.head) =
      (r.head + (r.live.takeWhile (expired r.windowMs now)).length,
        r.totalBytes -
          ((r.live.takeWhile (expired r.windowMs now)).map LimiterEntry.bytes).sum) :=
    pruneLoop_eq now r.windowMs r.head r.totalBytes r.live
  unfold prune
  rw [hloop, hkept]
  dsimp only
  by_cases hend : r.head + (r.live.takeWhile (expired r.windowMs now)).length = r.entries.length
  · rw [if_pos hend]
    have hnone : r.live.dropWhile (expired r.windowMs now) = [] := by
      rw [← hdrop, hend, List.drop_length]
    rw [hnone]
    exact ⟨rfl, rfl, rfl, rfl, .inr ⟨rfl, rfl⟩⟩
  rw [if_neg hend]
  have hlt : 0 < (r.live.dropWhile (expired r.windowMs now)).length := by
    rw [← hdrop, List.length_drop]
    omega
  split
  · refine ⟨?_, ?_, rfl, rfl, .inl ?_⟩
    · change (r.entries.drop _).drop 0 = _
      rw [hdrop, List.drop_zero]
    · change _ = (((r.entries.drop _).drop 0).map LimiterEntry.bytes).sum
      rw [hdrop, List.drop_zero]
    · change 0 < (r.entries.drop _).length
      rwa [hdrop]
  · refine ⟨hdrop, ?_, rfl, rfl, .inl ?_⟩
    · change _ = ((r.entries.drop _).map LimiterEntry.bytes).sum
      rw [hdrop]
    · change r.head + (r.live.takeWhile (expired r.windowMs now)).length < r.entries.length
      omega

/-- The limiter stands for the log of a naive one; the clock shows at most
`clock`. The totals agree in every window that is still to come. -/
structure Represents (r : SlidingWindowRateLimiter) (n : NaiveLimiter) (clock : Nat) : Prop where
  maxBytes : r.maxBytes = n.maxBytes
  windowMs : r.windowMs = n.windowMs
  head_le : r.head ≤ r.entries.length
  totalBytes : r.totalBytes = (r.live.map LimiterEntry.bytes).sum
  sorted : r.live.Pairwise fun e e' => e.timestamp ≤ e'.timestamp
  old : ∀ e ∈ r.live, e.timestamp ≤ clock
  logOld : ∀ e ∈ n.log, e.time ≤ clock
  same : ∀ now, clock ≤ now → total n.windowMs (asLog r.live) now = total n.windowMs n.log now

theorem asLog_append (entries entries' : List LimiterEntry) :
    asLog (entries ++ entries') = asLog entries ++ asLog entries' := List.map_append

/-- Entries none of which has expired count in full. -/
theorem total_of_current {windowMs : Nat} {entries : List LimiterEntry}
    (h : ∀ e ∈ entries, e.timestamp ≤ now ∧ now < e.timestamp + windowMs) :
    total windowMs (asLog entries) now = (entries.map LimiterEntry.bytes).sum := by
  induction entries with
  | nil => rfl
  | cons e rest ih =>
      obtain ⟨hfirst, hrest⟩ := List.forall_mem_cons.mp h
      change total windowMs (⟨e.timestamp, e.bytes⟩ :: asLog rest) now = _
      have hwithin : Within windowMs now e.timestamp := hfirst
      rw [total_cons, if_pos hwithin, ih hrest, List.map_cons, List.sum_cons]

/-- In an ordered log, what has expired stands in front, so dropping from the
front loses nothing of the window. -/
theorem total_dropWhile (windowMs : Nat) {entries : List LimiterEntry}
    (hsorted : entries.Pairwise fun e e' => e.timestamp ≤ e'.timestamp)
    (hold : ∀ e ∈ entries, e.timestamp ≤ now) :
    ((entries.dropWhile (expired windowMs now)).map LimiterEntry.bytes).sum =
        total windowMs (asLog entries) now ∧
      ∀ now', now ≤ now' →
        total windowMs (asLog (entries.dropWhile (expired windowMs now))) now' =
          total windowMs (asLog entries) now' := by
  induction entries with
  | nil => exact ⟨rfl, fun _ _ => rfl⟩
  | cons e rest ih =>
      obtain ⟨hbefore, hrest⟩ := List.pairwise_cons.mp hsorted
      obtain ⟨hfirst, holdRest⟩ := List.forall_mem_cons.mp hold
      have hcons : asLog (e :: rest) = ⟨e.timestamp, e.bytes⟩ :: asLog rest := rfl
      by_cases h : e.timestamp + windowMs ≤ now
      · have hout : ∀ now', now ≤ now' → ¬Within windowMs now' e.timestamp :=
          fun now' hle hwithin => absurd hwithin.2 (by omega)
        obtain ⟨hsum, hlater⟩ := ih hrest holdRest
        have hdrop : expired windowMs now e = true := decide_eq_true h
        rw [List.dropWhile_cons_of_pos hdrop]
        refine ⟨?_, fun now' hle => ?_⟩
        · rw [hsum, hcons, total_cons, if_neg (hout now le_rfl), Nat.zero_add]
        · rw [hlater now' hle, hcons, total_cons, if_neg (hout now' hle), Nat.zero_add]
      · have hkeep : ¬expired windowMs now e = true := fun hd => h (of_decide_eq_true hd)
        rw [List.dropWhile_cons_of_neg hkeep]
        refine ⟨(total_of_current fun e' he' => ⟨hold e' he', ?_⟩).symm, fun _ _ => rfl⟩
        rcases List.mem_cons.mp he' with rfl | hmem
        · omega
        · have := hbefore e' hmem
          omega

variable {n : NaiveLimiter} {clock : Nat}

/-- `prune` leaves the log as it is, and `totalBytes` is then the total of the
window. This is the heart of the simulation. -/
theorem Represents.prune (h : Represents r n clock) (hclock : clock ≤ now) :
    Represents (r.prune now) n now ∧
      (r.prune now).totalBytes = total n.windowMs n.log now ∧
      ((r.prune now).head < (r.prune now).entries.length ∨
        (r.prune now).head = 0 ∧ (r.prune now).entries = []) := by
  obtain ⟨hlive, htotal, hmax, hwindow, hhead⟩ := prune_spec h.head_le h.totalBytes now
  have hold : ∀ e ∈ r.live, e.timestamp ≤ now := fun e he => (h.old e he).trans hclock
  obtain ⟨hsum, hlater⟩ := total_dropWhile r.windowMs h.sorted hold
  have hsuffix : (r.prune now).live <:+ r.live := hlive ▸ List.dropWhile_suffix _
  refine ⟨⟨hmax.trans h.maxBytes, hwindow.trans h.windowMs, ?_, htotal,
    h.sorted.sublist hsuffix.sublist, fun e he => hold e (hsuffix.subset he),
    fun e he => (h.logOld e he).trans hclock, fun now' hle => ?_⟩, ?_, hhead⟩
  · rcases hhead with hlt | ⟨hzero, -⟩
    · exact hlt.le
    · rw [hzero]
      exact Nat.zero_le _
  · rw [hlive, ← h.windowMs, hlater now' hle, h.windowMs]
    exact h.same now' (hclock.trans hle)
  · rw [htotal, hlive, hsum, h.windowMs]
    exact h.same now hclock

/-- The entries `tryConsume` ends with when it accepts `bytes` at `now`: the
last one grows, or a new one is appended. -/
def recorded (entries : List LimiterEntry) (now bytes : Nat) : List LimiterEntry :=
  match entries.getLast? with
  | some last =>
    if last.timestamp = now then entries.dropLast ++ [{ last with bytes := last.bytes + bytes }]
    else entries ++ [{ timestamp := now, bytes }]
  | none => entries ++ [{ timestamp := now, bytes }]

theorem tryConsume_eq (r : SlidingWindowRateLimiter) (now bytes : Nat) :
    r.tryConsume now bytes =
      if (r.prune now).totalBytes + bytes > (r.prune now).maxBytes then (r.prune now, false)
      else if bytes = 0 then (r.prune now, true)
      else ({ r.prune now with
        entries := recorded (r.prune now).entries now bytes
        totalBytes := (r.prune now).totalBytes + bytes }, true) := rfl

theorem recorded_concat (entries : List LimiterEntry) (last : LimiterEntry) (now bytes : Nat) :
    recorded (entries ++ [last]) now bytes =
      entries ++ (if last.timestamp = now then [{ last with bytes := last.bytes + bytes }]
        else [last, { timestamp := now, bytes }]) := by
  unfold recorded
  rw [List.getLast?_concat]
  dsimp only
  split
  · rw [List.dropLast_concat]
  · rw [List.append_assoc]
    rfl

/-- Recording touches no entry before `head`. Behind `prune` there is an entry
to grow or there is none at all. -/
theorem recorded_drop {entries : List LimiterEntry} {head : Nat}
    (h : head < entries.length ∨ head = 0 ∧ entries = []) (now bytes : Nat) :
    (recorded entries now bytes).drop head = recorded (entries.drop head) now bytes ∧
      head ≤ (recorded entries now bytes).length := by
  rcases h with hlt | ⟨rfl, rfl⟩
  swap
  · exact ⟨rfl, Nat.zero_le _⟩
  obtain rfl | ⟨before, last, rfl⟩ := List.eq_nil_or_concat' entries
  · exact absurd hlt (Nat.not_lt_zero head)
  rw [List.length_append, List.length_singleton] at hlt
  have hle : head ≤ before.length := by omega
  rw [recorded_concat, List.drop_append_of_le_length hle, List.drop_append_of_le_length hle,
    recorded_concat, List.length_append]
  exact ⟨rfl, by omega⟩

/-- Recorded bytes count from `now` on, merged or not. -/
theorem recorded_spec {entries : List LimiterEntry} (windowMs bytes : Nat)
    (hsorted : entries.Pairwise fun e e' => e.timestamp ≤ e'.timestamp)
    (hold : ∀ e ∈ entries, e.timestamp ≤ now) :
    ((recorded entries now bytes).map LimiterEntry.bytes).sum =
        (entries.map LimiterEntry.bytes).sum + bytes ∧
      (recorded entries now bytes).Pairwise (fun e e' => e.timestamp ≤ e'.timestamp) ∧
      (∀ e ∈ recorded entries now bytes, e.timestamp ≤ now) ∧
      ∀ now', total windowMs (asLog (recorded entries now bytes)) now' =
        total windowMs (asLog entries) now' + total windowMs [⟨now, bytes⟩] now' := by
  rcases List.eq_nil_or_concat' entries with rfl | ⟨before, last, rfl⟩
  · refine ⟨by simp [recorded], by simp [recorded], by simp [recorded], fun now' => ?_⟩
    change total windowMs [⟨now, bytes⟩] now' = 0 + _
    rw [Nat.zero_add]
  rw [recorded_concat]
  rw [List.pairwise_append] at hsorted ⊢
  split
  · rename_i hnow
    refine ⟨by simp; omega, ⟨hsorted.1, List.pairwise_singleton _ _, ?_⟩, ?_, fun now' => ?_⟩
    · intro e he e' he'
      rw [List.mem_singleton.mp he']
      exact hsorted.2.2 e he last (List.mem_singleton_self last)
    · intro e he
      rcases List.mem_append.mp he with hbefore | hlast
      · exact hold e (List.mem_append_left _ hbefore)
      · rw [List.mem_singleton.mp hlast]
        exact hnow.le
    · rw [asLog_append, asLog_append, total_append, total_append, Nat.add_assoc]
      congr 1
      simp only [asLog, List.map_cons, List.map_nil, total_cons, total_nil, hnow]
      split <;> omega
  · refine ⟨by simp; omega, ⟨hsorted.1, ?_, ?_⟩, ?_, fun now' => ?_⟩
    · simpa using hold last (List.mem_append_right _ (List.mem_singleton_self last))
    · intro e he e' he'
      rcases List.mem_cons.mp he' with rfl | hnew
      · exact hsorted.2.2 e he _ (List.mem_singleton_self _)
      · rw [List.mem_singleton.mp hnew]
        exact hold e (List.mem_append_left _ he)
    · intro e he
      rcases List.mem_append.mp he with hbefore | hlast
      · exact hold e (List.mem_append_left _ hbefore)
      rcases List.mem_cons.mp hlast with rfl | hnew
      · exact hold _ (List.mem_append_right _ (List.mem_singleton_self _))
      · rw [List.mem_singleton.mp hnew]
    · rw [asLog_append, asLog_append, total_append, total_append, Nat.add_assoc]
      congr 1
      exact total_append windowMs [⟨last.timestamp, last.bytes⟩] [⟨now, bytes⟩] now'

/-- A call of `tryConsume` answers as the naive limiter does, and they still
stand for each other. -/
theorem Represents.tryConsume (h : Represents r n clock) (hclock : clock ≤ now) (bytes : Nat) :
    Represents (r.tryConsume now bytes).1
        { n with log := (grant n.maxBytes n.windowMs n.log now bytes).1 } now ∧
      (r.tryConsume now bytes).2 = (grant n.maxBytes n.windowMs n.log now bytes).2 := by
  obtain ⟨hpruned, htotal, hhead⟩ := h.prune hclock
  rw [tryConsume_eq]
  generalize r.prune now = p at hpruned htotal hhead
  unfold grant
  by_cases hfits : total n.windowMs n.log now + bytes ≤ n.maxBytes
  swap
  · have hover : p.totalBytes + bytes > p.maxBytes := by
      rw [htotal, hpruned.maxBytes]
      omega
    rw [if_neg hfits, if_pos hover]
    exact ⟨hpruned, rfl⟩
  have hroom : ¬p.totalBytes + bytes > p.maxBytes := by
    rw [htotal, hpruned.maxBytes]
    omega
  have hlog : ∀ e ∈ n.log ++ [⟨now, bytes⟩], e.time ≤ now := by
    intro e he
    rcases List.mem_append.mp he with hold | hnew
    · exact hpruned.logOld e hold
    · rw [List.mem_singleton.mp hnew]
  rw [if_pos hfits, if_neg hroom]
  by_cases hzero : bytes = 0
  · rw [if_pos hzero]
    refine ⟨{ hpruned with logOld := hlog, same := fun now' hle => ?_ }, rfl⟩
    change _ = total n.windowMs (n.log ++ _) now'
    rw [hpruned.same now' hle, total_append, hzero, total_cons, total_nil]
    split <;> rfl
  · rw [if_neg hzero]
    obtain ⟨hlive, hle⟩ := recorded_drop hhead now bytes
    obtain ⟨hsum, hsorted, hold, hsame⟩ :=
      recorded_spec n.windowMs bytes hpruned.sorted hpruned.old
    have hlive : ({ p with
        entries := recorded p.entries now bytes
        totalBytes := p.totalBytes + bytes } : SlidingWindowRateLimiter).live =
          recorded p.live now bytes := hlive
    refine ⟨⟨hpruned.maxBytes, hpruned.windowMs, hle, ?_, ?_, ?_, hlog, fun now' hle => ?_⟩, rfl⟩
    · rw [hlive, hsum, ← hpruned.totalBytes]
    · rw [hlive]
      exact hsorted
    · rw [hlive]
      exact hold
    · change _ = total n.windowMs (n.log ++ _) now'
      rw [hlive, hsame, hpruned.same now' hle, total_append]

/-- Every call answers as the naive limiter does: the step lemma of the
simulation. -/
theorem Represents.call (h : Represents r n clock) (c : LimiterCall) (hclock : clock ≤ c.now) :
    Represents (r.call c).1 (n.call c).1 c.now ∧ (r.call c).2 = (n.call c).2 := by
  cases c with
  | tryConsume now bytes =>
      obtain ⟨hrepresents, hanswer⟩ := h.tryConsume hclock bytes
      exact ⟨hrepresents, congrArg LimiterAnswer.accepted hanswer⟩
  | usage now =>
      obtain ⟨hrepresents, htotal, -⟩ := h.prune hclock
      exact ⟨hrepresents, congrArg LimiterAnswer.usage htotal⟩

/-- The clock of a sequence of calls starts at `clock` and does not go back.
Calls at equal times are allowed. -/
def Clocked (clock : Nat) (calls : List LimiterCall) : Prop :=
  (clock :: calls.map LimiterCall.now).Pairwise (· ≤ ·)

theorem Clocked.cons {c : LimiterCall} {rest : List LimiterCall} (h : Clocked clock (c :: rest)) :
    clock ≤ c.now ∧ Clocked c.now rest := by
  obtain ⟨hfirst, hrest⟩ := List.pairwise_cons.mp h
  exact ⟨hfirst c.now List.mem_cons_self, hrest⟩

theorem Represents.answers (h : Represents r n clock) {calls : List LimiterCall}
    (hclock : Clocked clock calls) : r.answers calls = n.answers calls := by
  induction calls generalizing r n clock with
  | nil => rfl
  | cons c rest ih =>
      obtain ⟨hfirst, hrest⟩ := hclock.cons
      obtain ⟨hrepresents, hanswer⟩ := h.call c hfirst
      unfold SlidingWindowRateLimiter.answers NaiveLimiter.answers
      rw [hanswer, ih hrepresents hrest]

theorem represents_new (maxBytes windowMs : Nat) :
    Represents { maxBytes, windowMs } { maxBytes, windowMs } 0 where
  maxBytes := rfl
  windowMs := rfl
  head_le := Nat.zero_le _
  totalBytes := rfl
  sorted := List.Pairwise.nil
  old := by intro e he; cases he
  logOld := by intro e he; cases he
  same := by intro now _; rfl

theorem Represents.after (h : Represents r n clock) {before later : List LimiterCall}
    (hclock : Clocked clock (before ++ later)) :
    ∃ clock', Represents (r.after before) (n.after before) clock' ∧ Clocked clock' later := by
  induction before generalizing r n clock with
  | nil => exact ⟨clock, h, hclock⟩
  | cons c rest ih =>
      obtain ⟨hfirst, hrest⟩ := hclock.cons
      exact ih (h.call c hfirst).1 hrest

/-- No window of the log exceeds the limit, in the past or in the future. -/
theorem Represents.total_le (h : Represents r n clock) {calls : List LimiterCall}
    (hclock : Clocked clock calls) (hbound : ∀ t, total n.windowMs n.log t ≤ n.maxBytes) :
    ∀ t, total n.windowMs (n.after calls).log t ≤ n.maxBytes := by
  induction calls generalizing r n clock with
  | nil => exact hbound
  | cons c rest ih =>
      obtain ⟨hfirst, hrest⟩ := hclock.cons
      have hnext := (h.call c hfirst).1
      cases c with
      | tryConsume now bytes =>
          have hold : ∀ e ∈ n.log, e.time ≤ now := fun e he => (h.logOld e he).trans hfirst
          exact ih hnext hrest (grant_total_le hold hbound)
      | usage now => exact ih hnext hrest hbound

/-- A rejected request changes no later answer, though it may have dropped
expired entries. -/
theorem Represents.rejected (h : Represents r n clock) {bytes : Nat} {later : List LimiterCall}
    (hclock : Clocked clock (.tryConsume now bytes :: later))
    (hrejected : (r.tryConsume now bytes).2 = false) :
    (r.tryConsume now bytes).1.answers later = r.answers later := by
  obtain ⟨hfirst, hlater⟩ : clock ≤ now ∧ Clocked now later := hclock.cons
  obtain ⟨hnext, hanswer⟩ := h.tryConsume hfirst bytes
  have hlog : (grant n.maxBytes n.windowMs n.log now bytes).1 = n.log := by
    rw [hrejected] at hanswer
    unfold grant at hanswer ⊢
    split at hanswer
    · cases hanswer
    · rename_i hover
      rw [if_neg hover]
  rw [hlog] at hnext
  have hskipped : Clocked clock later :=
    List.Pairwise.sublist ((List.sublist_cons_self now _).cons_cons clock) hclock
  rw [hnext.answers hlater, h.answers hskipped]

/-- The limiter is the naive sliding log: every call is answered alike, no
window admits more than `maxBytes`, and a rejected request changes no later
answer. -/
theorem answers_eq_naive (maxBytes windowMs : Nat) (calls : List LimiterCall)
    (hclock : (calls.map LimiterCall.now).Pairwise (· ≤ ·)) :
    answers { maxBytes, windowMs } calls = NaiveLimiter.answers { maxBytes, windowMs } calls ∧
      (∀ t, total windowMs (NaiveLimiter.after { maxBytes, windowMs } calls).log t ≤ maxBytes) ∧
      ∀ before now bytes later, calls = before ++ .tryConsume now bytes :: later →
        ((after { maxBytes, windowMs } before).tryConsume now bytes).2 = false →
        ((after { maxBytes, windowMs } before).tryConsume now bytes).1.answers later =
          (after { maxBytes, windowMs } before).answers later := by
  have hnew := represents_new maxBytes windowMs
  have hclocked : Clocked 0 calls := List.pairwise_cons.mpr ⟨fun _ _ => Nat.zero_le _, hclock⟩
  refine ⟨hnew.answers hclocked, hnew.total_le hclocked fun _ => Nat.zero_le _, ?_⟩
  rintro before now bytes later rfl hrejected
  obtain ⟨clock, hrepresents, hlater⟩ := hnew.after hclocked
  exact hrepresents.rejected hlater hrejected

/-- Two requests in one millisecond, one that does not fit, and one after both
expired. -/
theorem answers_eq_naive_expiry :
    NaiveLimiter.answers { maxBytes := 10, windowMs := 1000 }
      [.tryConsume 5 4, .tryConsume 5 6, .tryConsume 900 1, .usage 1004, .tryConsume 1005 10] =
    [.accepted true, .accepted true, .accepted false, .usage 10, .accepted true] := by
  rw [← (answers_eq_naive 10 1000
    [.tryConsume 5 4, .tryConsume 5 6, .tryConsume 900 1, .usage 1004, .tryConsume 1005 10]
    (by decide)).1]
  decide

end SlidingWindowRateLimiter

end RootlessRelay
