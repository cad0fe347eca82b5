import Mathlib.Algebra.BigOperators.Group.List.Basic
import Mathlib.Algebra.GroupWithZero.Nat
import Mathlib.Algebra.Order.BigOperators.Group.List

/-!
# Sliding logs

A log of amounts with the times at which they were granted, and the total of the
amounts in the window `(now - width, now]`. A request is granted when it fits
under a limit together with that total; whatever the requests, no window then
exceeds the limit.

The log only grows. An implementation that forgets old entries, or sums equal
times up, is compared with it through the totals, which is all that a decision
depends on. Times are natural numbers and need not be distinct; that they do not
run backwards is a hypothesis where it matters.
-/

namespace SlidingLog

/-- An amount and the time at which it was granted. -/
structure Entry where
  time : Nat
  amount : Nat
  deriving DecidableEq, Repr

/-- `time` lies in `(now - width, now]`. The window is open at its old end, so
an entry leaves it after exactly `width`. -/
def Within (width now time : Nat) : Prop := time ≤ now ∧ now < time + width

instance (width now time : Nat) : Decidable (Within width now time) :=
  inferInstanceAs (Decidable (_ ∧ _))

/-- The sum of the amounts in the window that ends at `now`, of entries that may
stand in any order. -/
def total (width : Nat) (log : List Entry) (now : Nat) : Nat :=
  ((log.filter fun e => Within width now e.time).map Entry.amount).sum

/-- Admit a request if it fits under `limit`, and enter it into the log;
otherwise leave the log as it is. -/
def grant (limit width : Nat) (log : List Entry) (now amount : Nat) : List Entry × Bool :=
  if total width log now + amount ≤ limit then (log ++ [⟨now, amount⟩], true) else (log, false)

variable {width limit now amount : Nat} {log log' : List Entry}

@[simp] theorem total_nil (width now : Nat) : total width [] now = 0 := rfl

theorem total_append (width : Nat) (log log' : List Entry) (now : Nat) :
    total width (log ++ log') now = total width log now + total width log' now := by
  simp [total]

theorem total_cons (width : Nat) (e : Entry) (log : List Entry) (now : Nat) :
    total width (e :: log) now =
      (if Within width now e.time then e.amount else 0) + total width log now := by
  unfold total
  split
  · rename_i h
    simp [h]
  · rename_i h
    simp [h]

/-- The window that ends later holds no more of what is in the log already:
nothing enters it from the past. -/
theorem total_le_total {now' : Nat} (hold : ∀ e ∈ log, e.time ≤ now) (hle : now ≤ now') :
    total width log now' ≤ total width log now := by
  induction log with
  | nil => exact le_rfl
  | cons e rest ih =>
      obtain ⟨hfirst, hrest⟩ := List.forall_mem_cons.mp hold
      rw [total_cons, total_cons]
      refine Nat.add_le_add ?_ (ih hrest)
      split
      · rename_i hlater
        have hnow : Within width now e.time := ⟨hfirst, hle.trans_lt hlater.2⟩
        rw [if_pos hnow]
      · exact Nat.zero_le _

/-- No window exceeds the limit after a request that was granted at the end of
the log. Windows in the future are included. -/
theorem grant_total_le (hold : ∀ e ∈ log, e.time ≤ now)
    (hbound : ∀ t, total width log t ≤ limit) :
    ∀ t, total width (grant limit width log now amount).1 t ≤ limit := by
  unfold grant
  split
  · rename_i hfits
    intro t
    rw [total_append, total_cons, total_nil, Nat.add_zero]
    split
    · rename_i hwithin
      exact (Nat.add_le_add_right (total_le_total hold hwithin.1) amount).trans hfits
    · exact hbound t
  · exact hbound

end SlidingLog
