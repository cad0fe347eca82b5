import Mathlib.Data.List.Basic

/-!
# Labelled transition systems and their runs

A system is a relation `step s e t`. A run applies a list of labels in order;
invariants are proved once per step and then hold along every run. A run whose
steps meet a condition is a run of the restricted system.

Conditions on runs come in two forms. A predicate on the state and the label of
each step restricts the system (`Restrict`), and then a run of the restricted
system is a run all of whose steps meet it. Where an invariant makes every step
have a property, `strengthen` puts that property into the steps. Both are used
to state that a run has a property exactly if each of its steps meets a
condition (`holds_iff`).
-/

namespace Transition

variable {σ ε : Type}

/-- `Run step s es t`: from `s`, the labels `es` can lead to `t`. Runs grow at
their end, so that an induction speaks about the state reached last. -/
inductive Run (step : σ → ε → σ → Prop) : σ → List ε → σ → Prop
  | nil (s : σ) : Run step s [] s
  | snoc {s t u : σ} {es : List ε} {e : ε} :
      Run step s es t → step t e u → Run step s (es ++ [e]) u

/-- The steps whose source state and label satisfy `allowed`. The target state
has no say in it. -/
def Restrict (step : σ → ε → σ → Prop) (allowed : σ → ε → Prop) : σ → ε → σ → Prop :=
  fun s e t => allowed s e ∧ step s e t

/-- Some run leads from `s` to `t`; its labels are forgotten. -/
def Reaches (step : σ → ε → σ → Prop) (s t : σ) : Prop := ∃ es, Run step s es t

namespace Run

variable {step step' : σ → ε → σ → Prop} {s t u : σ} {es fs : List ε}

/-- What the start satisfies and every step keeps, every reached state
satisfies. This is the one induction over runs that safety needs. -/
theorem invariant {P : σ → Prop} (keep : ∀ t e u, P t → step t e u → P u)
    (run : Run step s es t) (start : P s) : P t := by
  induction run with
  | nil => exact start
  | snoc _ last ih => exact keep _ _ _ ih last

theorem mono (weaken : ∀ t e u, step t e u → step' t e u) (run : Run step s es t) :
    Run step' s es t := by
  induction run with
  | nil => exact .nil _
  | snoc _ last ih => exact .snoc ih (weaken _ _ _ last)

theorem append (first : Run step s es t) (second : Run step t fs u) :
    Run step s (es ++ fs) u := by
  induction second with
  | nil => simpa using first
  | snoc _ last ih =>
      rw [← List.append_assoc]
      exact .snoc ih last

theorem single {e : ε} (h : step s e t) : Run step s [e] t := by
  simpa using Run.snoc (.nil s) h

theorem nil_iff : Run step s [] t ↔ t = s := by
  constructor
  · generalize hlabels : ([] : List ε) = labels
    intro run
    cases run with
    | nil => rfl
    | snoc first last => simp at hlabels
  · rintro rfl
    exact .nil t

theorem snoc_iff {e : ε} : Run step s (es ++ [e]) u ↔ ∃ t, Run step s es t ∧ step t e u := by
  constructor
  · generalize hlabels : es ++ [e] = labels
    intro run
    cases run with
    | nil => simp at hlabels
    | snoc first last =>
        obtain ⟨rfl, hlabel⟩ := List.append_inj' hlabels rfl
        obtain rfl := List.singleton_inj.mp hlabel
        exact ⟨_, first, last⟩
  · rintro ⟨t, first, last⟩
    exact .snoc first last

theorem single_iff {e : ε} : Run step s [e] t ↔ step s e t := by
  rw [← List.nil_append [e], snoc_iff]
  constructor
  · rintro ⟨t', hnil, last⟩
    obtain rfl := nil_iff.mp hnil
    exact last
  · exact fun h => ⟨s, .nil s, h⟩

theorem cons {e : ε} (first : step s e t) (rest : Run step t es u) : Run step s (e :: es) u :=
  (single first).append rest

/-- Without a step from `s` there is only the empty run, which leads nowhere
else. -/
theorem eq_of_stuck (run : Run step s es t) (stuck : ∀ e u, ¬step s e u) : es = [] ∧ t = s := by
  induction run with
  | nil => exact ⟨rfl, rfl⟩
  | snoc _ last ih =>
      obtain ⟨-, rfl⟩ := ih
      exact absurd last (stuck _ _)

theorem unrestrict {allowed : σ → ε → Prop} (run : Run (Restrict step allowed) s es t) :
    Run step s es t :=
  run.mono fun _ _ _ h => h.2

/-- Labels that are allowed in every state. Such a run is one of the restricted
system, whatever states it goes through. -/
theorem restrict {allowed : σ → ε → Prop} (run : Run step s es t)
    (holds : ∀ e ∈ es, ∀ s, allowed s e) : Run (Restrict step allowed) s es t := by
  induction run with
  | nil => exact .nil _
  | snoc _ last ih =>
      have before := ih fun e hmem => holds e (List.mem_append_left _ hmem)
      exact .snoc before ⟨holds _ (List.mem_append_right _ (List.mem_singleton_self _)) _, last⟩

/-- Along runs whose steps have the property `P`, an invariant is kept; where
under that invariant `P` of a step is a condition on its source and label, the
runs with the property are exactly the runs of the restricted system. -/
theorem restrict_iff {I : σ → Prop} {P : σ → ε → σ → Prop} {allowed : σ → ε → Prop}
    (start : I s) (keep : ∀ t e u, I t → step t e u → P t e u → I u)
    (agree : ∀ t e u, I t → step t e u → (P t e u ↔ allowed t e)) :
    Run (fun t e u => step t e u ∧ P t e u) s es t ↔ Run (Restrict step allowed) s es t := by
  constructor
  · intro run
    have held : I t ∧ Run (Restrict step allowed) s es t := by
      induction run with
      | nil => exact ⟨start, .nil _⟩
      | snoc _ last ih =>
          exact ⟨keep _ _ _ ih.1 last.1 last.2,
            .snoc ih.2 ⟨(agree _ _ _ ih.1 last.1).mp last.2, last.1⟩⟩
    exact held.2
  · intro run
    have held : I t ∧ Run (fun t e u => step t e u ∧ P t e u) s es t := by
      induction run with
      | nil => exact ⟨start, .nil _⟩
      | snoc _ last ih =>
          have property := (agree _ _ _ ih.1 last.2).mpr last.1
          exact ⟨keep _ _ _ ih.1 last.2 property, .snoc ih.2 ⟨last.2, property⟩⟩
    exact held.2

/-- Where an invariant gives every step the property `P`, the run has it at
every step. The invariant itself is no longer mentioned. -/
theorem strengthen {I : σ → Prop} {P : σ → ε → σ → Prop} (run : Run step s es t) (start : I s)
    (keep : ∀ t e u, I t → step t e u → P t e u ∧ I u) :
    Run (fun t e u => step t e u ∧ P t e u) s es t := by
  have held : I t ∧ Run (fun t e u => step t e u ∧ P t e u) s es t := by
    induction run with
    | nil => exact ⟨start, .nil _⟩
    | snoc _ last ih =>
        obtain ⟨property, kept⟩ := keep _ _ _ ih.1 last
        exact ⟨kept, .snoc ih.2 ⟨last, property⟩⟩
  exact held.2

/-- A property of the reached state that every step either keeps, exactly under
a condition on its source and label, or loses for good. -/
theorem holds_iff {I G : σ → Prop} {allowed : σ → ε → Prop} (run : Run step s es t)
    (start : I s ∧ G s) (keep : ∀ t e u, I t → step t e u → I u)
    (agree : ∀ t e u, I t → step t e u → (G u ↔ G t ∧ allowed t e)) :
    G t ↔ Run (Restrict step allowed) s es t := by
  constructor
  · intro goal
    have held : I t ∧ (G t → Run (Restrict step allowed) s es t) := by
      induction run with
      | nil => exact ⟨start.1, fun _ => .nil _⟩
      | snoc first last ih =>
          have holds := (agree _ _ _ (first.invariant keep start.1) last).mp goal
          obtain ⟨kept, prior⟩ := ih holds.1
          exact ⟨keep _ _ _ kept last, fun _ => .snoc (prior holds.1) ⟨holds.2, last⟩⟩
    exact held.2 goal
  · intro restricted
    have held := restricted.invariant (P := fun t => I t ∧ G t)
      (fun t e u h last => ⟨keep t e u h.1 last.2, (agree t e u h.1 last.2).mpr ⟨h.2, last.1⟩⟩)
      start
    exact held.2

end Run

namespace Reaches

variable {step : σ → ε → σ → Prop} {s t u : σ}

theorem refl (s : σ) : Reaches step s s := ⟨[], .nil s⟩

theorem trans (first : Reaches step s t) (second : Reaches step t u) : Reaches step s u := by
  obtain ⟨es, hes⟩ := first
  obtain ⟨fs, hfs⟩ := second
  exact ⟨es ++ fs, hes.append hfs⟩

theorem tail {e : ε} (first : Reaches step s t) (last : step t e u) : Reaches step s u :=
  first.trans ⟨[e], .single last⟩

theorem invariant {P : σ → Prop} (keep : ∀ t e u, P t → step t e u → P u)
    (reach : Reaches step s t) (start : P s) : P t := by
  obtain ⟨es, run⟩ := reach
  exact run.invariant keep start

end Reaches

end Transition
