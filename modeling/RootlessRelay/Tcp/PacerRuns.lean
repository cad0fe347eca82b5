import Mathlib.Algebra.BigOperators.Group.List.Basic
import Mathlib.Algebra.GroupWithZero.Nat
import Mathlib.Algebra.Order.BigOperators.Group.List
import Mathlib.Algebra.Order.Ring.Nat
import RootlessRelay.Library.Transition
import RootlessRelay.Tcp.Pacer

/-!
# Pacing over a whole run

Calls of `noteSegment`, `noteAck` and `noteLoss` in any order, on a clock that
does not go back and with timers that do not fire early. A burst is the segments
the pacer has counted since it was last blocked or idle. Between the segments of
two bursts lies at least one interval, so an interval meets one burst only, and
that has no more segments than a burst may have at most.

The times of all segments are kept beside the pacer as ghost state. `Timed`
relates them to what the pacer remembers, which is the last of them and a count;
from it follow the promises for every window, also for one that starts between
two calls.
-/

namespace RootlessRelay

open Transition

/-- The calls on a pacer, and the firing of the timer that was set at `armed`. -/
inductive PacerEvent
  | segment (now : Nat)
  | ack (ackedBytes congestionWindowBytes : Nat)
  | loss
  | fire (armed now : Nat)

/-- A pacer with its clock, the times at which its pending timers were set and
the times of the segments it has noted; and since the last loss, the bytes
acknowledged and the thresholds at which the burst has grown. -/
structure PacerRun where
  pacer : Pacer
  clock : Nat
  timers : List Nat := []
  segments : List Nat := []
  acked : Nat := 0
  thresholds : List Nat := []

namespace PacerRun

/-- A call or a timer. Segments are counted only while the pacer is not blocked,
as the send loop does. -/
inductive Step : PacerRun → PacerEvent → PacerRun → Prop
  | segment (s : PacerRun) {now : Nat} (free : s.pacer.blocked = false) (later : s.clock ≤ now) :
      Step s (.segment now)
        { s with
          pacer := (s.pacer.noteSegment now).1
          clock := now
          timers := if (s.pacer.noteSegment now).2 then s.timers ++ [now] else s.timers
          segments := s.segments ++ [now] }
  | ack (s : PacerRun) (ackedBytes congestionWindowBytes : Nat) :
      Step s (.ack ackedBytes congestionWindowBytes)
        { s with
          pacer := s.pacer.noteAck ackedBytes congestionWindowBytes
          acked := s.acked + ackedBytes
          thresholds :=
            if (s.pacer.noteAck ackedBytes congestionWindowBytes).burstSegments =
              s.pacer.burstSegments then s.thresholds
            else s.thresholds ++ [max 1 congestionWindowBytes] }
  | loss (s : PacerRun) :
      Step s .loss { s with pacer := s.pacer.noteLoss, acked := 0, thresholds := [] }
  | fire (s : PacerRun) {armed now : Nat} (pending : armed ∈ s.timers) (later : s.clock ≤ now)
      (due : armed + s.pacer.intervalMs ≤ now) :
      Step s (.fire armed now)
        { s with pacer := s.pacer.fireTimer, clock := now, timers := s.timers.erase armed }

/-- How many of the times lie in `[start, start + width)`, a window that is open
at its end. -/
def within (width start : Nat) (times : List Nat) : Nat :=
  times.countP fun t => start ≤ t ∧ t < start + width

/-- What pacing promises at every moment of a run: a bound on bursts, one on
windows, and growth that is paid for. -/
structure Paces (cfg : Settings) (s : PacerRun) : Prop where
  burst : cfg.sendBurstSegments ≤ s.pacer.burstSegments ∧
    s.pacer.burstSegments ≤ cfg.sendBurstMaxSegments
  window : ∀ start, within cfg.sendBurstIntervalMs start s.segments ≤ cfg.sendBurstMaxSegments
  fixed : cfg.pacingMode = .fixed →
    ∀ start, within cfg.sendBurstIntervalMs start s.segments ≤ cfg.sendBurstSegments
  timers : s.timers.length ≤ 1
  blocked : s.pacer.blocked = true ↔ s.timers ≠ []
  growth : ∀ threshold, (∀ t ∈ s.thresholds, threshold ≤ t) →
    s.thresholds.length * threshold ≤ s.acked

/-- The most segments a burst can have, by the mode of the pacer. -/
def burstLimit (cfg : Settings) : Nat :=
  if cfg.pacingMode = .fixed then cfg.sendBurstSegments else cfg.sendBurstMaxSegments

/-- The fields the constructor sets for good, and the bounds of a burst. -/
structure Configured (cfg : Settings) (p : Pacer) : Prop where
  mode : p.mode = cfg.pacingMode
  initial : p.initialBurstSegments = cfg.sendBurstSegments
  max : p.maxBurstSegments = cfg.sendBurstMaxSegments
  interval : p.intervalMs = cfg.sendBurstIntervalMs
  low : cfg.sendBurstSegments ≤ p.burstSegments
  high : p.burstSegments ≤ burstLimit cfg

/-- What the pacer knows about the segments: `earlier` are those of finished
bursts, and the rest are those it has counted. -/
structure Timed (cfg : Settings) (s : PacerRun) : Prop where
  room : s.pacer.segmentsInBurst < burstLimit cfg
  last : ∀ t ∈ s.segments, ∃ last, s.pacer.lastSegmentAt = some last ∧ t ≤ last
  past : ∀ t ∈ s.segments, t ≤ s.clock
  burst : ∃ earlier current, s.segments = earlier ++ current ∧
    current.length = s.pacer.segmentsInBurst ∧
    ∀ a ∈ earlier, ∀ b ∈ current, a + cfg.sendBurstIntervalMs ≤ b
  rested : s.pacer.segmentsInBurst = 0 → s.pacer.blocked = false →
    ∀ t ∈ s.segments, t + cfg.sendBurstIntervalMs ≤ s.clock
  armed : s.pacer.blocked = false ∧ s.timers = [] ∨ s.pacer.blocked = true ∧
    s.pacer.segmentsInBurst = 0 ∧ ∃ t, s.timers = [t] ∧ ∀ a ∈ s.segments, a ≤ t
  window : ∀ start, within cfg.sendBurstIntervalMs start s.segments ≤ burstLimit cfg

/-- Every growth of the burst has used up its threshold, so growth is bounded by
what was acknowledged. -/
def Grown (s : PacerRun) : Prop := s.thresholds.sum + s.pacer.ackedBytes ≤ s.acked

/-- The invariant of an enabled pacer, in the three parts that its methods
touch. -/
structure Inv (cfg : Settings) (s : PacerRun) : Prop where
  configured : Configured cfg s.pacer
  timed : Timed cfg s
  grown : Grown s

theorem within_append (width start : Nat) (times times' : List Nat) :
    within width start (times ++ times') = within width start times + within width start times' :=
  List.countP_append

/-- Where a whole interval lies in front of the last times, a window meets only
these or only those in front of them. -/
theorem within_append_le {width start limit : Nat} {earlier current : List Nat}
    (hgap : ∀ a ∈ earlier, ∀ b ∈ current, a + width ≤ b)
    (hearlier : within width start earlier ≤ limit) (hcurrent : current.length ≤ limit) :
    within width start (earlier ++ current) ≤ limit := by
  rw [within_append]
  by_cases hmeets : ∃ b ∈ current, start ≤ b ∧ b < start + width
  · obtain ⟨b, hb, -, hlt⟩ := hmeets
    have hnone : within width start earlier = 0 := by
      refine List.countP_eq_zero.mpr fun a ha => ?_
      have := hgap a ha b hb
      rw [decide_eq_true_eq]
      omega
    have hle : within width start current ≤ current.length := List.countP_le_length
    omega
  · have hnone : within width start current = 0 :=
      List.countP_eq_zero.mpr fun b hb hin => hmeets ⟨b, hb, of_decide_eq_true hin⟩
    omega

/-- An acknowledgment is ignored, is counted, or lets the burst grow for the
threshold. Losses are a case of their own. -/
theorem noteAck_cases (p : Pacer) (ackedBytes window : Nat) :
    p.noteAck ackedBytes window = p ∨
      p.noteAck ackedBytes window = { p with ackedBytes := p.ackedBytes + ackedBytes } ∨
      p.mode = .adaptive ∧ p.burstSegments < p.maxBurstSegments ∧
        max 1 window ≤ p.ackedBytes + ackedBytes ∧
        p.noteAck ackedBytes window =
          { p with
            ackedBytes := p.ackedBytes + ackedBytes - max 1 window
            burstSegments := p.burstSegments + 1 } := by
  unfold Pacer.noteAck
  by_cases hignored : p.mode ≠ .adaptive ∨ ackedBytes = 0
  · exact .inl (if_pos hignored)
  rw [if_neg hignored]
  dsimp only
  by_cases hkept : p.ackedBytes + ackedBytes < max 1 window ∨ p.burstSegments ≥ p.maxBurstSegments
  · exact .inr (.inl (if_pos hkept))
  · rw [if_neg hkept]
    refine .inr (.inr ⟨?_, by omega, by omega, rfl⟩)
    by_contra hmode
    exact hignored (.inl hmode)

theorem noteLoss_eq (p : Pacer) : p.noteLoss =
    { p with
      ackedBytes := 0
      burstSegments := if p.mode ≠ .adaptive then p.burstSegments
        else max p.initialBurstSegments (p.burstSegments / 2) } := by
  unfold Pacer.noteLoss
  dsimp only
  split <;> rfl

/-- A segment is one more of its burst, or the last one, behind which the pacer
is blocked. -/
theorem noteSegment_cases {p : Pacer} (hon : p.isOff = false) (hfree : p.blocked = false)
    (now : Nat) :
    (p.countSegment now).segmentsInBurst < p.burstSegments ∧
        p.noteSegment now = (p.countSegment now, false) ∨
      p.noteSegment now = ({ p.countSegment now with
        segmentsInBurst := 0, blocked := true, timer := true }, true) := by
  unfold Pacer.noteSegment
  rw [if_neg (by simp [hon]), if_neg (by simp [hfree])]
  dsimp only
  by_cases hmore : (p.countSegment now).segmentsInBurst < (p.countSegment now).burstSegments
  · exact .inl ⟨hmore, if_pos hmore⟩
  · exact .inr (if_neg hmore)

section Steps

variable {cfg : Settings} {s : PacerRun} {now : Nat}

/-- The burst that a segment at `now` belongs to: the one under way, or a new
one behind an idle interval. -/
theorem Timed.count (h : Timed cfg s) (hinterval : s.pacer.intervalMs = cfg.sendBurstIntervalMs)
    (hpos : 0 < cfg.sendBurstIntervalMs) (hfree : s.pacer.blocked = false) (hlater : s.clock ≤ now) :
    (s.pacer.countSegment now).segmentsInBurst ≤ burstLimit cfg ∧
      0 < (s.pacer.countSegment now).segmentsInBurst ∧
      ∃ earlier current, s.segments ++ [now] = earlier ++ current ∧
        current.length = (s.pacer.countSegment now).segmentsInBurst ∧
        earlier <+: s.segments ∧
        ∀ a ∈ earlier, ∀ b ∈ current, a + cfg.sendBurstIntervalMs ≤ b := by
  have hroom := h.room
  refine ⟨?_, Nat.succ_pos _, ?_⟩
  · unfold Pacer.countSegment
    dsimp only
    split <;> omega
  by_cases hnew : s.pacer.idleAt now = true ∨ s.pacer.segmentsInBurst = 0
  · -- the burst starts here: the last one is over for an interval
    refine ⟨s.segments, [now], rfl, ?_, List.prefix_rfl, fun a ha b hb => ?_⟩
    · unfold Pacer.countSegment
      obtain hidle | hzero := hnew
      · simp [hidle]
      · simp [hzero]
    · obtain rfl := List.mem_singleton.mp hb
      obtain hidle | hzero := hnew
      · obtain ⟨last, hlast, hle⟩ := h.last a ha
        unfold Pacer.idleAt at hidle
        rw [hlast, hinterval] at hidle
        have hold := of_decide_eq_true hidle
        omega
      · have := h.rested hzero hfree a ha
        omega
  · obtain ⟨hidle, hstarted⟩ := not_or.mp hnew
    obtain ⟨earlier, current, hsegments, hcount, hgap⟩ := h.burst
    refine ⟨earlier, current ++ [now], by rw [hsegments, List.append_assoc], ?_,
      ⟨current, hsegments.symm⟩, ?_⟩
    · unfold Pacer.countSegment
      rw [if_neg hidle, List.length_append, hcount]
      rfl
    · intro a ha b hb
      obtain hold | hnow := List.mem_append.mp hb
      · exact hgap a ha b hold
      · -- a segment of the running burst lies in between
        obtain rfl := List.mem_singleton.mp hnow
        obtain ⟨first, hfirst⟩ := List.exists_mem_of_length_pos (by omega : 0 < current.length)
        have hbetween := hgap a ha first hfirst
        have hpast := h.past first (by rw [hsegments]; exact List.mem_append_right _ hfirst)
        omega

/-- A segment that is counted later than all before it keeps the record in time. -/
theorem Timed.segment (h : Timed cfg s) (hc : Configured cfg s.pacer)
    (hon : s.pacer.isOff = false) (hpos : 0 < cfg.sendBurstIntervalMs)
    (hfree : s.pacer.blocked = false) (hlater : s.clock ≤ now) :
    Timed cfg { s with
      pacer := (s.pacer.noteSegment now).1
      clock := now
      timers := if (s.pacer.noteSegment now).2 then s.timers ++ [now] else s.timers
      segments := s.segments ++ [now] } := by
  obtain ⟨hle, hsome, earlier, current, hsegments, hcount, hearlier, hgap⟩ :=
    h.count hc.interval hpos hfree hlater
  have hhigh := hc.high
  have htimers : s.timers = [] := by
    obtain ⟨-, hnone⟩ | ⟨hblocked, -⟩ := h.armed
    · exact hnone
    · rw [hfree] at hblocked
      cases hblocked
  have hpast : ∀ t ∈ s.segments ++ [now], t ≤ now := by
    intro t ht
    obtain hold | hnow := List.mem_append.mp ht
    · exact (h.past t hold).trans hlater
    · exact (List.mem_singleton.mp hnow).le
  have hwindow : ∀ start, within cfg.sendBurstIntervalMs start (s.segments ++ [now]) ≤
      burstLimit cfg := by
    intro start
    rw [hsegments]
    exact within_append_le hgap (hearlier.sublist.countP_le.trans (h.window start)) (hcount ▸ hle)
  obtain ⟨hmore, hnote⟩ | hnote := noteSegment_cases hon hfree now
  · rw [hnote, htimers]
    exact {
      room := hmore.trans_le hhigh
      last := fun t ht => ⟨now, rfl, hpast t ht⟩
      past := hpast
      burst := ⟨earlier, current, hsegments, hcount, hgap⟩
      rested := fun hzero => absurd hzero (Nat.ne_of_gt hsome)
      armed := .inl ⟨hfree, rfl⟩
      window := hwindow }
  · rw [hnote, htimers]
    exact {
      room := hsome.trans_le hle
      last := fun t ht => ⟨now, rfl, hpast t ht⟩
      past := hpast
      burst := ⟨s.segments ++ [now], [], (List.append_nil _).symm, rfl, by simp⟩
      rested := fun _ hopen => by cases hopen
      armed := .inr ⟨rfl, rfl, now, rfl, hpast⟩
      window := hwindow }

/-- The timer that fires is the one that was set, and nothing was sent since. It
does not fire before an interval has passed. -/
theorem Timed.fire {armed : Nat} (h : Timed cfg s)
    (hinterval : s.pacer.intervalMs = cfg.sendBurstIntervalMs) (hpending : armed ∈ s.timers)
    (hlater : s.clock ≤ now) (hdue : armed + s.pacer.intervalMs ≤ now) :
    Timed cfg { s with
      pacer := s.pacer.fireTimer, clock := now, timers := s.timers.erase armed } := by
  obtain ⟨-, hnone⟩ | ⟨-, hzero, t, htimers, hbefore⟩ := h.armed
  · rw [hnone] at hpending
    cases hpending
  rw [htimers] at hpending
  obtain rfl := List.mem_singleton.mp hpending
  exact {
    room := h.room
    last := h.last
    past := fun t ht => (h.past t ht).trans hlater
    burst := h.burst
    rested := by
      intro _ _ t ht
      have := hbefore t ht
      dsimp only
      omega
    armed := .inl ⟨rfl, by rw [htimers, List.erase_cons_head]⟩
    window := h.window }

/-- `noteAck` and `noteLoss` change neither the burst that is under way nor the
timer. -/
theorem Timed.adjust (h : Timed cfg s) (ackedBytes burstSegments acked : Nat)
    (thresholds : List Nat) :
    Timed cfg { s with
      pacer := { s.pacer with ackedBytes, burstSegments }, acked, thresholds } :=
  ⟨h.room, h.last, h.past, h.burst, h.rested, h.armed, h.window⟩

/-- Acknowledged bytes may let the burst grow by whole thresholds. -/
theorem Inv.ack (h : Inv cfg s) (ackedBytes window : Nat) :
    Inv cfg { s with
      pacer := s.pacer.noteAck ackedBytes window
      acked := s.acked + ackedBytes
      thresholds :=
        if (s.pacer.noteAck ackedBytes window).burstSegments = s.pacer.burstSegments then
          s.thresholds
        else s.thresholds ++ [max 1 window] } := by
  obtain ⟨hc, ht, hg⟩ := h
  unfold Grown at hg
  obtain hnote | hnote | ⟨hmode, hless, hreached, hnote⟩ := noteAck_cases s.pacer ackedBytes window
  · rw [hnote, if_pos rfl]
    exact ⟨hc, ht.adjust _ _ _ _, hg.trans (Nat.le_add_right _ _)⟩
  · rw [hnote, if_pos rfl]
    refine ⟨⟨hc.mode, hc.initial, hc.max, hc.interval, hc.low, hc.high⟩, ht.adjust _ _ _ _, ?_⟩
    unfold Grown
    dsimp only
    omega
  · rw [hnote, if_neg (by simp)]
    have hlow := hc.low
    have hlimit : burstLimit cfg = s.pacer.maxBurstSegments := by
      have hadaptive : cfg.pacingMode ≠ .fixed := by
        rw [← hc.mode, hmode]
        decide
      rw [burstLimit, if_neg hadaptive, hc.max]
    refine ⟨⟨hc.mode, hc.initial, hc.max, hc.interval, ?_, ?_⟩, ht.adjust _ _ _ _, ?_⟩
    · dsimp only
      omega
    · dsimp only
      omega
    · unfold Grown
      dsimp only
      rw [List.sum_append, List.sum_singleton]
      omega

theorem Inv.loss (h : Inv cfg s) :
    Inv cfg { s with pacer := s.pacer.noteLoss, acked := 0, thresholds := [] } := by
  obtain ⟨hc, ht, -⟩ := h
  have hlow := hc.low
  have hhigh := hc.high
  have hinitial := hc.initial
  rw [noteLoss_eq]
  refine ⟨⟨hc.mode, hc.initial, hc.max, hc.interval, ?_, ?_⟩, ht.adjust _ _ _ _, Nat.le_refl 0⟩
  · dsimp only
    split <;> omega
  · dsimp only
    split <;> omega

/-- Every call keeps the invariant of an enabled pacer: the step lemma, with one
case for each event. -/
theorem Inv.step {s' : PacerRun} {e : PacerEvent} (hon : cfg.pacingMode ≠ .off)
    (hpos : 0 < cfg.sendBurstIntervalMs) (h : Inv cfg s) (step : Step s e s') : Inv cfg s' := by
  have hc := h.configured
  cases step with
  | segment free later =>
      have hrunning : s.pacer.isOff = false := by
        unfold Pacer.isOff
        rw [hc.mode]
        exact decide_eq_false hon
      have ht := h.timed.segment hc hrunning hpos free later
      obtain ⟨-, hnote⟩ | hnote := noteSegment_cases hrunning free _
      · rw [hnote] at ht ⊢
        exact ⟨⟨hc.mode, hc.initial, hc.max, hc.interval, hc.low, hc.high⟩, ht, h.grown⟩
      · rw [hnote] at ht ⊢
        exact ⟨⟨hc.mode, hc.initial, hc.max, hc.interval, hc.low, hc.high⟩, ht, h.grown⟩
  | ack ackedBytes window => exact h.ack ackedBytes window
  | loss => exact h.loss
  | fire pending later due =>
      exact ⟨⟨hc.mode, hc.initial, hc.max, hc.interval, hc.low, hc.high⟩,
        h.timed.fire hc.interval pending later due, h.grown⟩

/-- A new pacer, at any time of the clock. -/
theorem Inv.start (hpos : 0 < cfg.sendBurstIntervalMs) (clock : Nat) :
    Inv cfg { pacer := Pacer.new cfg, clock } := by
  have hburst := cfg.burst_pos
  have hmax := cfg.burst_le_max
  have hlimit : cfg.sendBurstSegments ≤ burstLimit cfg := by
    unfold burstLimit
    split <;> omega
  have hmode : (Pacer.new cfg).mode = cfg.pacingMode := if_neg (Nat.ne_of_gt hpos)
  refine ⟨⟨hmode, rfl, rfl, rfl, le_rfl, hlimit⟩, ?_, Nat.le_refl 0⟩
  exact {
    room := by
      change 0 < burstLimit cfg
      omega
    last := by simp
    past := by simp
    burst := ⟨[], [], rfl, rfl, by simp⟩
    rested := by simp
    armed := .inl ⟨rfl, rfl⟩
    window := fun _ => Nat.zero_le _ }

/-- The invariant gives the promises, window by window. -/
theorem Inv.paces (h : Inv cfg s) : Paces cfg s := by
  obtain ⟨hc, ht, hg⟩ := h
  have hmax := cfg.burst_le_max
  have hlimit : burstLimit cfg ≤ cfg.sendBurstMaxSegments := by
    unfold burstLimit
    split <;> omega
  refine ⟨⟨hc.low, hc.high.trans hlimit⟩, fun start => (ht.window start).trans hlimit,
    fun hfixed start => ?_, ?_, ?_, fun threshold hle => ?_⟩
  · have hwindow := ht.window start
    rwa [burstLimit, if_pos hfixed] at hwindow
  · obtain ⟨-, hnone⟩ | ⟨-, -, t, hone, -⟩ := ht.armed
    · rw [hnone]
      exact Nat.zero_le _
    · rw [hone]
      exact le_rfl
  · obtain ⟨hfree, hnone⟩ | ⟨hblocked, -, t, hone, -⟩ := ht.armed
    · simp [hfree, hnone]
    · simp [hblocked, hone]
  · have hsum := List.card_nsmul_le_sum s.thresholds threshold hle
    rw [nsmul_eq_mul] at hsum
    unfold Grown at hg
    exact hsum.trans (by omega)

end Steps

/-- An enabled pacer keeps its bounds at every moment of every run, from its
construction on. -/
theorem pacing_bound (cfg : Settings) (clock : Nat) (events : List PacerEvent) (s : PacerRun)
    (hon : cfg.pacingMode ≠ .off) (hpos : 0 < cfg.sendBurstIntervalMs)
    (run : Run Step { pacer := Pacer.new cfg, clock } events s) : Paces cfg s :=
  (run.invariant (fun _ _ _ h step => h.step hon hpos step) (Inv.start hpos clock)).paces

/-- A burst of three segments, the timer behind it, and a segment of the next
burst. -/
theorem pacing_bound_two : ∃ s events,
    Run Step { pacer := Pacer.new {}, clock := 0 } events s ∧ s.segments = [4, 4, 5, 11] ∧
      Paces {} s := by
  have hstart : Run Step { pacer := Pacer.new {}, clock := 0 } [] _ := Run.nil _
  have hburst := ((hstart.snoc (@Step.segment _ 4 rfl (by decide))).snoc
    (@Step.segment _ 4 rfl (by decide))).snoc (@Step.segment _ 5 rfl (by decide))
  have hnext := (hburst.snoc (@Step.fire _ 5 11 (by decide) (by decide) (by decide))).snoc
    (@Step.segment _ 11 rfl (by decide))
  exact ⟨_, _, hnext, rfl, pacing_bound {} 0 _ _ (by decide) (by decide) hnext⟩

end PacerRun

end RootlessRelay
