import Mathlib.Data.Set.Lattice

/-!
# Assembling a numbered stream

A receiver of a numbered stream holds some of its places. What it can hand over
is the part without a gap from the start: `Frontier held n` says that the first
missing place is `n`. The frontier depends on the set of held places only, so it
does not matter in which order the places were filled.

Two receivers of the same pieces thus get equally far, and one that has dropped
some of them gets as far as the other exactly if it lacks nothing below that
frontier. Sets of places are used here and no data: what a place holds is fixed
by the stream.
-/

namespace StreamAssembly

/-- `n` is the first place that is not held: everything below it is, so the part
up to `n` can be handed over. -/
structure Frontier (held : Set ℕ) (n : ℕ) : Prop where
  below : ∀ k < n, k ∈ held
  gap : n ∉ held

namespace Frontier

variable {held held' : Set ℕ} {n n' : ℕ}

theorem mono (h : Frontier held n) (h' : Frontier held' n') (hsub : held ⊆ held') : n ≤ n' := by
  by_contra hlt
  exact h'.gap (hsub (h.below n' (Nat.lt_of_not_le hlt)))

theorem unique (h : Frontier held n) (h' : Frontier held n') : n = n' :=
  Nat.le_antisymm (h.mono h' subset_rfl) (h'.mono h subset_rfl)

/-- Holding less, a receiver gets equally far when it lacks nothing below. What
it lacks above the frontier does no harm yet. -/
theorem eq_iff (h : Frontier held n) (h' : Frontier held' n') (hsub : held ⊆ held') :
    n = n' ↔ ∀ k < n', k ∈ held := by
  constructor
  · rintro rfl
    exact h.below
  · intro hall
    refine Nat.le_antisymm (h.mono h' hsub) ?_
    by_contra hlt
    exact h.gap (hall n (Nat.lt_of_not_le hlt))

end Frontier

section Pieces

variable {ι : Type} (place : ι → Set ℕ)

/-- The places some pieces fill, each piece by itself. -/
def filled (pieces : List ι) : Set ℕ := {k | ∃ piece ∈ pieces, k ∈ place piece}

@[simp] theorem filled_nil : filled place [] = ∅ := by
  simp [filled]

@[simp] theorem filled_cons (piece : ι) (pieces : List ι) :
    filled place (piece :: pieces) = place piece ∪ filled place pieces := by
  ext k
  simp [filled]

theorem filled_mono {pieces pieces' : List ι} (h : pieces ⊆ pieces') :
    filled place pieces ⊆ filled place pieces' := by
  rintro k ⟨piece, hmem, hk⟩
  exact ⟨piece, h hmem, hk⟩

end Pieces

end StreamAssembly
