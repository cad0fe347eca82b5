import Mathlib.Data.Fintype.Card
import Mathlib.Data.List.Chain
import Mathlib.Data.Set.Finite.Basic
import Mathlib.Logic.Relation

/-!
# Termination without a measure

A computation that follows a relation of its own input has no decreasing
measure. Where the relation leads to finitely many points only, following it
ends exactly when no way from the start comes back to where it has been.

A recursion along the relation also takes up stack. Where it may nest so many
calls only, it ends exactly when every way from the start has fewer steps than
that, and among ways without a branch the two conditions differ by the bound
alone. Neither condition mentions the computation: both are about the relation,
so they can be put to a reader as conditions on the input.
-/

namespace Acyclic

open Relation

variable {α : Type*} {r : α → α → Prop} {a b : α}

/-- No point that `a` leads to leads back to itself. A cycle somewhere else,
which `a` does not reach, does no harm. -/
def From (r : α → α → Prop) (a : α) : Prop := ∀ b, ReflTransGen r a b → ¬TransGen r b b

theorem From.step (h : From r a) (hstep : r a b) : From r b :=
  fun c hreach => h c (hreach.head hstep)

theorem irrefl_of_acc {s : α → α → Prop} (h : Acc s a) : ¬s a a := by
  induction h with
  | intro a _ ih => exact fun hself => ih a hself hself

/-- A way that can be followed to its end only does not come back: a cycle could
be followed for ever. -/
theorem from_of_acc (h : Acc (Function.swap r) a) : From r a := by
  intro b hreach hback
  have hacc : Acc (Function.swap r) b := by
    clear hback
    induction hreach with
    | refl => exact h
    | tail _ hstep ih => exact ih.inv hstep
  exact irrefl_of_acc (acc_transGen_iff.mpr hacc) (transGen_swap.mpr hback)

/-- Among finitely many points a way that never comes back ends. The points
still ahead become fewer with every step. -/
theorem acc_of_from (hfin : {c | ∃ b, r b c}.Finite) (h : From r a) :
    Acc (Function.swap r) a := by
  -- the points behind `a`, ordered by which leads to which
  let Behind := {c | TransGen r a c}
  let after (x y : Behind) : Prop := TransGen r y x
  have hsubset : Behind ⊆ {c | ∃ b, r b c} := by
    intro c hreach
    obtain ⟨b, -, hlast⟩ := TransGen.tail'_iff.mp hreach
    exact ⟨b, hlast⟩
  have hfinite : Finite Behind := (hfin.subset hsubset).to_subtype
  have htrans : IsTrans Behind after := ⟨fun _ _ _ hxy hyz => hyz.trans hxy⟩
  have hirrefl : Std.Irrefl after := ⟨fun x => h x x.2.to_reflTransGen⟩
  have hacc : ∀ x : Behind, Acc (Function.swap r) x.1 := by
    intro x
    induction x using (Finite.wellFounded_of_trans_of_irrefl after).induction with
    | h x ih =>
        exact Acc.intro _ fun c hstep => ih ⟨c, x.2.tail hstep⟩ (TransGen.single hstep)
  exact Acc.intro _ fun c hstep => hacc ⟨c, TransGen.single hstep⟩

theorem acc_iff_from (hfin : {c | ∃ b, r b c}.Finite) : Acc (Function.swap r) a ↔ From r a :=
  ⟨from_of_acc, acc_of_from hfin⟩

/-- Every way along `r` that starts at `a` has fewer than `depth` steps. With a
depth of zero there is no such point, as even the empty way is too long. -/
def Shorter (r : α → α → Prop) (depth : Nat) (a : α) : Prop :=
  ∀ way : List α, (a :: way).IsChain r → way.length < depth

theorem not_shorter_zero (r : α → α → Prop) (a : α) : ¬Shorter r 0 a :=
  fun h => Nat.not_lt_zero _ (h [] (List.isChain_singleton a))

theorem shorter_succ {depth : Nat} :
    Shorter r (depth + 1) a ↔ ∀ b, r a b → Shorter r depth b := by
  constructor
  · intro h b hstep way hway
    exact Nat.lt_of_succ_lt_succ (h (b :: way) (List.isChain_cons_cons.mpr ⟨hstep, hway⟩))
  · intro h way hway
    cases way with
    | nil => exact Nat.succ_pos depth
    | cons b way =>
        obtain ⟨hstep, hrest⟩ := List.isChain_cons_cons.mp hway
        exact Nat.succ_lt_succ (h b hstep way hrest)

/-- What is never the case without a call, and with one more call exactly if it
is the case wherever `r` leads to, says of a point that all ways from it are
short enough. -/
theorem iff_shorter {P : Nat → α → Prop} (zero : ∀ a, ¬P 0 a)
    (succ : ∀ depth a, P (depth + 1) a ↔ ∀ b, r a b → P depth b) (depth : Nat) (a : α) :
    P depth a ↔ Shorter r depth a := by
  induction depth generalizing a with
  | zero => exact iff_of_false (zero a) (not_shorter_zero r a)
  | succ depth ih =>
      rw [succ, shorter_succ]
      exact forall_congr' fun b => imp_congr_right fun _ => ih b

/-- Ways of bounded length come to an end, whatever the number of points. -/
theorem acc_of_shorter {depth : Nat} (h : Shorter r depth a) : Acc (Function.swap r) a := by
  induction depth generalizing a with
  | zero => exact absurd h (not_shorter_zero r a)
  | succ depth ih => exact Acc.intro _ fun b hstep => ih (shorter_succ.mp h b hstep)

/-- Where only one way leads on from a point, its end is that many steps away.
Without a branch every end thus has a bound. -/
theorem shorter_of_acc (unique : ∀ a b c, r a b → r a c → b = c)
    (h : Acc (Function.swap r) a) : ∃ depth, Shorter r depth a := by
  induction h with
  | intro a _ ih =>
      by_cases hnext : ∃ b, r a b
      · obtain ⟨b, hstep⟩ := hnext
        obtain ⟨depth, hshorter⟩ := ih b hstep
        refine ⟨depth + 1, shorter_succ.mpr fun c hother => ?_⟩
        rwa [unique a c b hother hstep]
      · exact ⟨1, shorter_succ.mpr fun b hstep => absurd ⟨b, hstep⟩ hnext⟩

end Acyclic
