import Mathlib.Data.List.TakeDrop
import RootlessRelay.Library.Transition

/-!
# A reliable outgoing stream

What the sending end of a reliable byte stream is for, without segments, timers
or windows. Units of payload are queued, put into sequence space, and
acknowledged from the front; one further item marks the end of the stream.

The machine itself does not stop its user from queueing or ending after the end;
`Proper` names the actions that respect it, and only runs of proper actions keep
the end mark last. Conservation needs no such condition: no action loses,
repeats or reorders a unit, in whatever order they come.

The type `ι` of items and the type `β` of payload units are arbitrary. `Format`
says how one becomes the other.
-/

namespace SendStream

open Transition

variable {ι β : Type}

/-- How payload units and the end mark become items of sequence space. A unit
carries itself and the end mark carries nothing; what other items there are is
open. -/
structure Format (ι β : Type) where
  payload : ι → Option β
  unit : β → ι
  fin : ι
  payload_unit : ∀ b, payload (unit b) = some b
  payload_fin : payload fin = none

/-- The sending end: what has been acknowledged, what is on its way, what waits,
and what was ever queued. The last is kept for the statements only. -/
structure State (ι β : Type) where
  acknowledged : List ι
  outstanding : List ι
  queued : List β
  enqueued : List β
  finished : Bool

/-- What the user and the peer can do. Payload is put into sequence space by
`count` units at a time. -/
inductive Action (β : Type)
  | enqueue (data : List β)
  | transmit (count : Nat)
  | finish
  | acknowledge (count : Nat)

/-- Everything that has entered sequence space, in order, whether it has been
acknowledged or not. -/
def State.history (s : State ι β) : List ι := s.acknowledged ++ s.outstanding

/-- The effect of the actions. Transmitting takes from the front of the queue,
acknowledging from the front of what is outstanding. -/
inductive Step (F : Format ι β) : State ι β → Action β → State ι β → Prop
  | enqueue (s : State ι β) (data : List β) :
      Step F s (.enqueue data)
        { s with queued := s.queued ++ data, enqueued := s.enqueued ++ data }
  | transmit (s : State ι β) (count : Nat) :
      Step F s (.transmit count)
        { s with
          outstanding := s.outstanding ++ (s.queued.take count).map F.unit
          queued := s.queued.drop count }
  | finish {s : State ι β} (empty : s.queued = []) :
      Step F s .finish { s with outstanding := s.outstanding ++ [F.fin], finished := true }
  | acknowledge (s : State ι β) (count : Nat) :
      Step F s (.acknowledge count)
        { s with
          acknowledged := s.acknowledged ++ s.outstanding.take count
          outstanding := s.outstanding.drop count }

/-- Nothing is queued and no second end mark is sent after the end. All other
actions are proper in every state. -/
def Proper (s : State ι β) : Action β → Prop
  | .enqueue _ => s.finished = false
  | .finish => s.finished = false
  | _ => True

/-- No unit is lost, repeated or reordered: the payload in sequence space, with
the queue behind it, is what was queued. -/
def State.Conserved (F : Format ι β) (s : State ι β) : Prop :=
  s.history.filterMap F.payload ++ s.queued = s.enqueued

/-- The end mark is unique, comes last, and is sent only after all payload.
Before the end there is none. -/
structure State.FinLast (F : Format ι β) (s : State ι β) : Prop where
  unfinished : s.finished = false → F.fin ∉ s.history
  finished : s.finished = true → s.queued = [] ∧
    ∃ front, s.history = front ++ [F.fin] ∧ F.fin ∉ front

variable {F : Format ι β} {s t : State ι β} {action : Action β}

theorem fin_not_mem_units (data : List β) : F.fin ∉ data.map F.unit := by
  intro hmem
  obtain ⟨b, -, hb⟩ := List.mem_map.mp hmem
  have hpay := F.payload_unit b
  rw [hb, F.payload_fin] at hpay
  cases hpay

theorem filterMap_units (data : List β) : (data.map F.unit).filterMap F.payload = data := by
  rw [List.filterMap_map]
  have hsome : F.payload ∘ F.unit = some := funext F.payload_unit
  rw [hsome, List.filterMap_some]

/-- What has entered sequence space keeps its place; an acknowledgement moves no
item. -/
theorem Step.history_prefix (h : Step F s action t) : s.history <+: t.history := by
  cases h with
  | enqueue => exact List.prefix_rfl
  | transmit => exact ⟨_, by simp only [State.history, List.append_assoc]; rfl⟩
  | finish => exact ⟨[F.fin], by simp only [State.history, List.append_assoc]⟩
  | acknowledge count => simp [State.history, List.append_assoc]

theorem Step.outstanding_transmit {count : Nat} (h : Step F s (.transmit count) t)
    (hqueued : count ≤ s.queued.length) : t.outstanding.length = s.outstanding.length + count := by
  cases h
  rw [List.length_append, List.length_map, List.length_take_of_le hqueued]

theorem Step.outstanding_finish (h : Step F s .finish t) :
    t.outstanding.length = s.outstanding.length + 1 := by
  cases h
  exact List.length_append

theorem Step.conserved (h : Step F s action t) (hs : s.Conserved F) : t.Conserved F := by
  unfold State.Conserved State.history at *
  cases h with
  | enqueue => simp only [← hs, List.append_assoc]
  | transmit =>
      rw [← List.append_assoc, List.filterMap_append, filterMap_units, List.append_assoc,
        List.take_append_drop]
      exact hs
  | finish empty =>
      rw [← List.append_assoc, List.filterMap_append]
      simpa [F.payload_fin] using hs
  | acknowledge =>
      rw [List.append_assoc, List.take_append_drop]
      exact hs

/-- A proper action keeps the last item last: once it is in sequence space
nothing follows. -/
theorem Step.finLast (h : Step F s action t) (proper : Proper s action) (hs : s.FinLast F) :
    t.FinLast F := by
  cases h with
  | enqueue data =>
      exact ⟨hs.unfinished, fun hfin => by cases proper.symm.trans hfin⟩
  | transmit count =>
      refine ⟨fun hopen => ?_, fun hfin => ?_⟩
      · have hmem := hs.unfinished hopen
        simp only [State.history, List.mem_append, not_or] at hmem ⊢
        exact ⟨hmem.1, hmem.2, fin_not_mem_units _⟩
      · obtain ⟨hqueue, hlast⟩ := hs.finished hfin
        simpa [State.history, hqueue] using hlast
  | finish empty =>
      refine ⟨nofun, fun _ => ⟨empty, s.history, ?_, hs.unfinished proper⟩⟩
      simp only [State.history, List.append_assoc]
  | acknowledge count =>
      have hsame : State.history { s with
          acknowledged := s.acknowledged ++ s.outstanding.take count
          outstanding := s.outstanding.drop count } = s.history := by
        simp only [State.history, List.append_assoc, List.take_append_drop]
      exact ⟨fun hopen => hsame ▸ hs.unfinished hopen, fun hfin => by
        rw [hsame]
        exact hs.finished hfin⟩

/-- The end mark is sent at most once, since it is the last item and no other is
one. -/
theorem State.FinLast.count_le [DecidableEq ι] (hs : s.FinLast F) : s.history.count F.fin ≤ 1 := by
  cases hfin : s.finished with
  | false =>
      rw [List.count_eq_zero.mpr (hs.unfinished hfin)]
      exact Nat.zero_le 1
  | true =>
      obtain ⟨-, front, hlast, hfront⟩ := hs.finished hfin
      simp [hlast, List.count_eq_zero.mpr hfront]

/-- Once the end mark is sent, nothing enters sequence space any more: whatever
follows keeps the mark last. -/
theorem State.FinLast.history_eq (ht : t.FinLast F) (hpre : s.history <+: t.history)
    (hmem : F.fin ∈ s.history) : t.history = s.history := by
  obtain ⟨rest, hrest⟩ := hpre
  have hfin : t.finished = true := by
    by_contra hopen
    exact ht.unfinished (by simpa using hopen) (hrest ▸ List.mem_append_left _ hmem)
  obtain ⟨-, front, hlast, hfront⟩ := ht.finished hfin
  rcases List.eq_nil_or_concat' rest with rfl | ⟨rest, last, rfl⟩
  · rw [← hrest, List.append_nil]
  · -- Otherwise the end mark of `s` lies before the last item of `t`.
    rw [hlast, ← List.append_assoc] at hrest
    obtain ⟨rfl, -⟩ := List.append_inj' hrest rfl
    exact absurd (List.mem_append_left _ hmem) hfront

theorem history_prefix_of_reaches (h : Reaches (Step F) s t) : s.history <+: t.history :=
  h.invariant (P := fun u => s.history <+: u.history)
    (fun _ _ _ hu hstep => hu.trans hstep.history_prefix) List.prefix_rfl

/-- Along proper runs the end mark stays last, by induction over the run. -/
theorem finLast_of_reaches (h : Reaches (Restrict (Step F) Proper) s t) (hs : s.FinLast F) :
    t.FinLast F :=
  h.invariant (fun _ _ _ ht hstep => hstep.2.finLast hstep.1 ht) hs

end SendStream
