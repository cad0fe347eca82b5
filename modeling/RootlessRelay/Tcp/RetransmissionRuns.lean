import RootlessRelay.Library.Transition
import RootlessRelay.Tcp.SequenceItems

/-!
# Runs of a retransmission queue

The owner's callbacks may call back into the queue, but only through its own
methods. `LawfulCallbacks` carries that promise; under it every method keeps the
bookkeeping of an open queue (`Sound`), and hence every reachable open queue
refines its list of items.

Methods are made of a few updates, and a property that survives each of them
survives every method and every run (`Kept`, `Reachable.kept`). Invariants are
therefore proved update by update. The callbacks are any that keep the promise:
they may throw, refuse a probe, track further segments or close the queue from
inside.
-/

namespace RootlessRelay

open SequenceSpace

namespace RetransmissionQueue

/-- The methods a callback may call on the queue that is calling it, any number
of times. -/
inductive Reentrant : RetransmissionQueue → RetransmissionQueue → Prop
  | refl (q : RetransmissionQueue) : Reentrant q q
  | track {q r r' : RetransmissionQueue} {sent : SentSegment} {added : Bool} :
      Reentrant q r → r.track sent = .ok (r', added) → Reentrant q r'
  | close {q r : RetransmissionQueue} : Reentrant q r → Reentrant q r.close

end RetransmissionQueue

/-- Callbacks that touch the queue only through `track` and `close`. Their
effect on the owner is free. -/
structure LawfulCallbacks (σ : Type) extends Callbacks σ where
  onRetransmit_reentrant : ∀ (q : RetransmissionQueue) owner segment reason,
    q.Reentrant (onRetransmit q owner segment reason).1
  onPersistProbe_reentrant : ∀ (q : RetransmissionQueue) owner segment,
    q.Reentrant (onPersistProbe q owner segment).1
  onExhausted_reentrant : ∀ (q : RetransmissionQueue) owner error segment,
    q.Reentrant (onExhausted q owner error segment).1

namespace RetransmissionQueue

@[simp] theorem close_closed (q : RetransmissionQueue) : q.close.closed = true := by
  unfold close
  split
  · assumption
  · rfl

/-- `P` survives each of the updates the methods are made of. -/
structure Kept (P : RetransmissionQueue → Prop) : Prop where
  fields : ∀ {q : RetransmissionQueue} (persist : Bool) (currentRtoMs timeoutRetransmissions : Nat),
    P q → P { q with persist, currentRtoMs, timeoutRetransmissions }
  gaveUp : ∀ {q : RetransmissionQueue}, P q → P { q with exhausted := true }
  counted : ∀ {q : RetransmissionQueue}, P q →
    P { q with segments := countRetransmission q.segments }
  armed : ∀ {q : RetransmissionQueue}, P q → P q.armTimer
  cleared : ∀ {q : RetransmissionQueue}, P q → P q.clearTimer
  tracked : ∀ {q q' : RetransmissionQueue} {sent : SentSegment} {added : Bool}, P q →
    q.track sent = .ok (q', added) → P q'
  acknowledged : ∀ {q q' : RetransmissionQueue} {ack : Seq} {result : AckResult}, P q →
    q.acknowledge ack = .ok (q', result) → P q'
  closed : ∀ {q : RetransmissionQueue}, P q → P q.close
  discarded : ∀ {q : RetransmissionQueue} {generation : Nat},
    generation ≠ q.timerGeneration ∨ q.closed = true ∨ q.exhausted = true → P q →
    P { q with scheduled := q.scheduled.erase generation }
  fired : ∀ {q : RetransmissionQueue}, P q →
    P { q with scheduled := q.scheduled.erase q.timerGeneration, timer := none }

theorem Reentrant.kept {P : RetransmissionQueue → Prop} (hP : Kept P)
    {q r : RetransmissionQueue} (hr : q.Reentrant r) (h : P q) : P r := by
  induction hr with
  | refl => exact h
  | track _ htrack ih => exact hP.tracked ih htrack
  | close _ ih => exact hP.closed ih

namespace Kept

variable {P : RetransmissionQueue → Prop} (hP : Kept P) {σ : Type} (cb : LawfulCallbacks σ)
  {q : RetransmissionQueue} (h : P q) (owner : σ)
include hP h

theorem backOff : P q.backOff :=
  hP.armed (hP.fields q.persist _ q.timeoutRetransmissions h)

theorem exhaust (error : Exhaustion) : P (exhaust cb.toCallbacks q owner error).1 :=
  (cb.onExhausted_reentrant _ _ _ _).kept hP (hP.cleared (hP.gaveUp h))

theorem emitRetransmission (reason : Reason) :
    P (emitRetransmission cb.toCallbacks q owner reason).1 := by
  have hcall := (cb.onRetransmit_reentrant q owner q.oldest reason).kept hP h
  unfold RetransmissionQueue.emitRetransmission
  split <;> rename_i heq <;> rw [heq] at hcall
  · exact hcall
  · exact hP.exhaust cb hcall _ _

theorem fastRetransmit : P (fastRetransmit cb.toCallbacks q owner).1 := by
  have hemit := hP.emitRetransmission cb
    (hP.cleared (hP.fields q.persist q.initialRtoMs q.timeoutRetransmissions h)) owner .fast
  unfold RetransmissionQueue.fastRetransmit
  split
  · exact h
  · dsimp only
    split <;> rename_i heq <;> rw [heq] at hemit
    · exact hemit
    · exact hP.armed hemit

theorem switchPersist (enabled : Bool) : P (q.switchPersist enabled) :=
  hP.fields enabled _ _ (hP.cleared (hP.fields enabled q.currentRtoMs q.timeoutRetransmissions h))

theorem setPersist (enabled : Bool) : P (setPersist cb.toCallbacks q owner enabled).1 := by
  have hswitched := hP.switchPersist h enabled
  unfold RetransmissionQueue.setPersist
  split
  · exact h
  · dsimp only
    split
    · exact hP.armed (hP.emitRetransmission cb hswitched owner .windowOpen)
    · exact hP.armed hswitched

theorem countTimeout : P q.countTimeout := hP.fields q.persist q.currentRtoMs _ h

theorem handleProbeTimeout : P (handleProbeTimeout cb.toCallbacks q owner).1 := by
  have hprobe := (cb.onPersistProbe_reentrant q.countTimeout owner q.oldest).kept hP
    (hP.countTimeout h)
  unfold RetransmissionQueue.handleProbeTimeout
  split
  · exact hP.exhaust cb h _ _
  · split <;> rename_i heq <;> rw [heq] at hprobe
    · exact hP.backOff (hP.cleared hprobe)
    · exact hP.backOff (hP.cleared (hP.fields _ _ _ hprobe))
    · exact hP.exhaust cb hprobe _ _

theorem handleRetransmissionTimeout :
    P (handleRetransmissionTimeout cb.toCallbacks q owner).1 := by
  have hcounted : P { q.countTimeout with segments := countRetransmission q.segments } :=
    hP.counted (hP.countTimeout h)
  have hemit := hP.emitRetransmission cb hcounted owner .timeout
  unfold RetransmissionQueue.handleRetransmissionTimeout
  split
  · exact h
  split
  · exact hP.exhaust cb h _ _
  · dsimp only
    split <;> rename_i heq <;> rw [heq] at hemit
    · exact hemit
    · exact hP.backOff hemit

/-- A property that the methods keep holds after a timer, whatever its
generation. -/
theorem fireTimer (generation : Nat) : P (fireTimer cb.toCallbacks q owner generation).1 := by
  unfold RetransmissionQueue.fireTimer
  dsimp only
  split
  · rename_i hstale
    exact hP.discarded hstale h
  · rename_i hcurrent
    simp only [not_or, Decidable.not_not] at hcurrent
    rw [hcurrent.1]
    have hfired := hP.fired h
    unfold RetransmissionQueue.handleTimeout
    split
    · exact hfired
    split
    · exact hP.handleProbeTimeout cb hfired owner
    · exact hP.handleRetransmissionTimeout cb hfired owner

end Kept

/-- One call from outside, or one timer callback run by the host. -/
inductive Operation
  | track (sent : SentSegment)
  | acknowledge (ack : Seq)
  | fastRetransmit
  | setPersist (enabled : Bool)
  | fireTimer (generation : Nat)
  | close

/-- The queue and its owner after one operation. A `track` that throws has not
touched the queue, and neither has an `acknowledge` that does: it throws only on
a closed queue, which has no segments. The owner may do anything between
operations. -/
inductive Step {σ : Type} (cb : LawfulCallbacks σ) :
    RetransmissionQueue × σ → Operation → RetransmissionQueue × σ → Prop
  | track {q q' : RetransmissionQueue} {o o' : σ} {sent : SentSegment} {added : Bool} :
      q.track sent = .ok (q', added) → Step cb (q, o) (.track sent) (q', o')
  | trackThrows {q : RetransmissionQueue} {o o' : σ} {sent : SentSegment} {error : QueueError} :
      q.track sent = .error error → Step cb (q, o) (.track sent) (q, o')
  | acknowledge {q q' : RetransmissionQueue} {o o' : σ} {ack : Seq} {result : AckResult} :
      q.acknowledge ack = .ok (q', result) → Step cb (q, o) (.acknowledge ack) (q', o')
  | acknowledgeThrows {q : RetransmissionQueue} {o o' : σ} {ack : Seq} {error : QueueError} :
      q.acknowledge ack = .error error → Step cb (q, o) (.acknowledge ack) (q, o')
  | fastRetransmit {q : RetransmissionQueue} {o : σ} :
      Step cb (q, o) .fastRetransmit ((fastRetransmit cb.toCallbacks q o).1,
        (fastRetransmit cb.toCallbacks q o).2.1)
  | setPersist {q : RetransmissionQueue} {o : σ} {enabled : Bool} :
      Step cb (q, o) (.setPersist enabled) (setPersist cb.toCallbacks q o enabled)
  | fireTimer {q : RetransmissionQueue} {o : σ} {generation : Nat} :
      generation ∈ q.scheduled →
      Step cb (q, o) (.fireTimer generation) (fireTimer cb.toCallbacks q o generation)
  | close {q : RetransmissionQueue} {o : σ} : Step cb (q, o) .close (q.close, o)

theorem Kept.step {P : RetransmissionQueue → Prop} (hP : Kept P) {σ : Type}
    {cb : LawfulCallbacks σ} {s t : RetransmissionQueue × σ} {op : Operation} (h : P s.1)
    (hstep : Step cb s op t) : P t.1 := by
  cases hstep with
  | track htrack => exact hP.tracked h htrack
  | trackThrows _ => exact h
  | acknowledge hack => exact hP.acknowledged h hack
  | acknowledgeThrows _ => exact h
  | fastRetransmit => exact hP.fastRetransmit cb h _
  | setPersist => exact hP.setPersist cb h _ _
  | fireTimer _ => exact hP.fireTimer cb h _ _
  | close => exact hP.closed h

/-- `q` can be reached from a freshly constructed queue, whatever its settings
and its owner. -/
def Reachable {σ : Type} (cb : LawfulCallbacks σ) (q : RetransmissionQueue) : Prop :=
  ∃ isn initialRtoMs maxRtoMs maxRetransmissions owner owner',
    Transition.Reaches (Step cb)
      (new isn initialRtoMs maxRtoMs maxRetransmissions, owner) (q, owner')

theorem Reachable.kept {P : RetransmissionQueue → Prop} (hP : Kept P)
    (hnew : ∀ isn initialRtoMs maxRtoMs maxRetransmissions,
      P (new isn initialRtoMs maxRtoMs maxRetransmissions))
    {σ : Type} {cb : LawfulCallbacks σ} {q : RetransmissionQueue} (h : Reachable cb q) : P q := by
  obtain ⟨isn, initial, most, budget, owner, owner', hrun⟩ := h
  exact hrun.invariant (P := fun s => P s.1) (fun _ _ _ hs hstep => hP.step hs hstep)
    (hnew isn initial most budget)

/-- Until it is closed, a queue's bookkeeping describes its list of items. -/
def Sound (q : RetransmissionQueue) : Prop := q.closed = false → q.WellTracked

theorem Sound.congr {q q' : RetransmissionQueue} (h : q.Sound)
    (hclosed : q'.closed = q.closed) (hseg : q'.segments = q.segments)
    (huna : q'.sndUna = q.sndUna) (hnxt : q'.sndNxt = q.sndNxt)
    (hfly : q'.payloadBytesInFlight = q.payloadBytesInFlight) : q'.Sound := by
  intro hopen
  exact (h (hclosed ▸ hopen)).congr hseg huna hnxt hfly

/-- Tracking keeps the queue sound. -/
theorem track_sound {q q' : RetransmissionQueue} {sent : SentSegment} {added : Bool}
    (h : q.Sound) (htrack : q.track sent = .ok (q', added)) : q'.Sound := by
  obtain ⟨-, he⟩ | ⟨-, -, -, he⟩ | ⟨-, -, -, -, he⟩ | ⟨hclosed, -, hitems, hseq, he⟩ :=
    track_cases q sent
  · rw [he] at htrack
    cases htrack
  · rw [he] at htrack
    cases htrack
    exact h
  · rw [he] at htrack
    cases htrack
  · rw [he] at htrack
    cases htrack
    have happend : (q.append sent).Sound := fun _ => (h hclosed).append hseq hitems
    split
    · exact happend.congr (by simp) (by simp) (by simp) (by simp) (by simp)
    · exact happend

theorem acknowledge_closed {q q' : RetransmissionQueue} {ack : Seq} {result : AckResult}
    (hack : q.acknowledge ack = .ok (q', result)) : q'.closed = q.closed := by
  obtain ⟨rfl, -⟩ | ⟨rfl, -⟩ | ⟨-, -, segments, inFlight, rfl⟩ := acknowledge_cases hack
  · rfl
  · rfl
  · exact armTimer_closed _

/-- Acknowledging keeps the queue sound: the first segment is cut, and the ones
before it are dropped. -/
theorem acknowledge_sound {q q' : RetransmissionQueue} {ack : Seq} {result : AckResult}
    (h : q.Sound) (hack : q.acknowledge ack = .ok (q', result)) : q'.Sound := by
  intro hopen'
  have hopen : q.closed = false := acknowledge_closed hack ▸ hopen'
  revert hopen'
  change q'.Sound
  by_cases hok : 0 < distance ack q.sndUna ∧ distance ack q.sndUna < 2 ^ 31 ∧
      distance ack q.sndUna ≤ distance q.sndNxt q.sndUna
  · obtain ⟨rest, he, -, -, hw⟩ := acknowledge_advanced (h hopen) ack hok.1 hok.2.1 hok.2.2
    rw [he] at hack
    cases hack
    exact fun _ => hw
  · obtain ⟨q₁, status, he, -, -, hq⟩ := acknowledge_ignored q ack (by omega)
    rw [he] at hack
    cases hack
    rcases hq with rfl | ⟨-, rfl⟩
    · exact h
    · exact h.congr rfl rfl rfl rfl rfl

@[simp] theorem segmentItems_countRetransmission (segments : List Segment) :
    segmentItems (countRetransmission segments) = segmentItems segments := by
  cases segments <;> rfl

theorem contiguous_countRetransmission {una : Seq} {segments : List Segment}
    (h : Contiguous una segments) : Contiguous una (countRetransmission segments) := by
  cases segments with
  | nil => exact h
  | cons segment rest => exact h

theorem WellTracked.countRetransmission {q q' : RetransmissionQueue} (h : q.WellTracked)
    (hseg : q'.segments = RetransmissionQueue.countRetransmission q.segments)
    (huna : q'.sndUna = q.sndUna) (hnxt : q'.sndNxt = q.sndNxt)
    (hfly : q'.payloadBytesInFlight = q.payloadBytesInFlight) : q'.WellTracked := by
  have hitems : q'.items = q.items := by
    simp only [items, hseg, segmentItems_countRetransmission]
  exact ⟨by rw [huna, hseg]; exact contiguous_countRetransmission h.contiguous,
    by rw [hnxt, huna, hitems]; exact h.next, by rw [hfly, hitems]; exact h.inFlight⟩

theorem soundKept : Kept Sound where
  fields _ _ _ h := h.congr rfl rfl rfl rfl rfl
  gaveUp h := h.congr rfl rfl rfl rfl rfl
  counted h hopen := (h hopen).countRetransmission rfl rfl rfl rfl
  armed h := by apply h.congr <;> simp
  cleared h := h.congr rfl rfl rfl rfl rfl
  tracked := track_sound
  acknowledged := acknowledge_sound
  closed _ hopen := by
    rw [close_closed] at hopen
    cases hopen
  discarded _ h := h.congr rfl rfl rfl rfl rfl
  fired h := h.congr rfl rfl rfl rfl rfl

theorem Reachable.sound {σ : Type} {cb : LawfulCallbacks σ} {q : RetransmissionQueue}
    (h : Reachable cb q) : q.Sound :=
  h.kept soundKept fun isn initial most budget _ => new_wellTracked isn initial most budget

/-- Once closed, a queue has no segments, and nothing brings them back. -/
def Emptied (q : RetransmissionQueue) : Prop := q.closed = true → q.segments = []

/-- Each of the updates leaves a closed queue empty. -/
theorem emptiedKept : Kept Emptied where
  fields _ _ _ h := h
  gaveUp h := h
  counted {q} h hclosed := by
    change countRetransmission q.segments = []
    rw [h hclosed]
    rfl
  armed {q} h hclosed := by
    rw [armTimer_closed] at hclosed
    rw [armTimer_segments]
    exact h hclosed
  cleared h := h
  tracked {q q' sent added} h htrack hclosed := by
    obtain ⟨-, he⟩ | ⟨-, -, -, he⟩ | ⟨-, -, -, -, he⟩ | ⟨hopen, -, -, -, he⟩ := track_cases q sent
    all_goals rw [he] at htrack
    all_goals cases htrack
    · exact h hclosed
    · have hstill : q.closed = true := by
        split at hclosed
        · simpa [append] using hclosed
        · exact hclosed
      rw [hopen] at hstill
      cases hstill
  acknowledged {q q' ack result} h hack hclosed := by
    rw [acknowledge_closed hack] at hclosed
    obtain ⟨rfl, -⟩ | ⟨rfl, -⟩ | ⟨-, hne, -⟩ := acknowledge_cases hack
    · exact h hclosed
    · exact h hclosed
    · exact absurd (h hclosed) hne
  closed {q} h hclosed := by
    unfold RetransmissionQueue.close
    split
    · rename_i hshut
      exact h hshut
    · rfl
  discarded _ h := h
  fired h := h

/-- An `acknowledge` that throws has found a closed queue without segments, so
it has changed nothing. -/
theorem Reachable.acknowledge_throws {σ : Type} {cb : LawfulCallbacks σ}
    {q : RetransmissionQueue} (h : Reachable cb q) {ack : Seq} {error : QueueError}
    (hack : q.acknowledge ack = .error error) : q.closed = true ∧ q.segments = [] := by
  have hclosed : q.closed = true := by
    by_contra hopen
    have hw := h.sound (by simpa using hopen)
    by_cases hok : 0 < distance ack q.sndUna ∧ distance ack q.sndUna < 2 ^ 31 ∧
        distance ack q.sndUna ≤ distance q.sndNxt q.sndUna
    · obtain ⟨rest, he, -⟩ := acknowledge_advanced hw ack hok.1 hok.2.1 hok.2.2
      rw [he] at hack
      cases hack
    · obtain ⟨q', status, he, -⟩ := acknowledge_ignored q ack (by omega)
      rw [he] at hack
      cases hack
  exact ⟨hclosed, h.kept emptiedKept (fun _ _ _ _ hc => nomatch hc) hclosed⟩

/-- The fields are synchronised with the list of items: counts, numbers and
bytes in flight. -/
structure DescribesItems (q : RetransmissionQueue) : Prop where
  outstanding : q.items.length = sequenceDistance q.sndNxt q.sndUna
  numbered : ∀ front segment back, q.segments = front ++ segment :: back →
    segment.seq = position q.sndUna (segmentItems front).length ∧
      segment.sequenceLength = segment.items.length ∧ 0 < segment.sequenceLength
  inFlight : q.payloadBytesInFlight = (dataOf q.items).length

/-- `track` appends the items of its segment, or does nothing when there are
none. It throws, and then leaves the queue as it was, only for items that do not
continue the list or after the queue has given up. -/
def TrackAppends (q : RetransmissionQueue) : Prop :=
  ∀ sent, match q.track sent with
    | .error _ =>
      q.exhausted = true ∨ sent.seq ≠ q.sndNxt ∧ itemsOf sent.payload sent.flags ≠ []
    | .ok (q', added) =>
      if itemsOf sent.payload sent.flags = [] then added = false ∧ q' = q
      else added = true ∧ q'.items = q.items ++ itemsOf sent.payload sent.flags ∧
        q'.sndUna = q.sndUna

/-- `acknowledge` never throws. It drops the covered items when there are
between one and all of them, and otherwise leaves the list alone. -/
def AcknowledgeDrops (q : RetransmissionQueue) : Prop :=
  ∀ ack, ∃ q' result, q.acknowledge ack = .ok (q', result) ∧ q'.sndNxt = q.sndNxt ∧
    if 1 ≤ sequenceDistance ack q.sndUna ∧ sequenceDistance ack q.sndUna ≤ q.items.length then
      q'.items = q.items.drop (sequenceDistance ack q.sndUna) ∧ q'.sndUna = ack ∧
        result = ⟨.advanced, (dataOf (q.items.take (sequenceDistance ack q.sndUna))).length⟩
    else
      q'.items = q.items ∧ q'.sndUna = q.sndUna ∧
        q'.payloadBytesInFlight = q.payloadBytesInFlight ∧
        result.status ≠ .advanced ∧ result.ackedDataBytes = 0

/-- Tracking puts a segment behind the others, and throws where it would leave a
gap. -/
theorem trackAppends {q : RetransmissionQueue} (hopen : q.closed = false) :
    q.TrackAppends := by
  intro sent
  obtain ⟨hshut, he⟩ | ⟨-, -, hnil, he⟩ | ⟨-, -, hitems, hseq, he⟩ |
    ⟨-, -, hitems, -, he⟩ := track_cases q sent
  · rw [he]
    exact .inl (by simpa [hopen] using hshut)
  · rw [he]
    dsimp only
    rw [if_pos hnil]
    exact ⟨rfl, rfl⟩
  · rw [he]
    exact .inr ⟨hseq, hitems⟩
  · rw [he]
    dsimp only
    rw [if_neg hitems]
    refine ⟨rfl, ?_, ?_⟩ <;> split <;> simp

/-- An acknowledgement drops the items in front of its number, as long as they
span less than half the sequence space. -/
theorem WellTracked.acknowledgeDrops {q : RetransmissionQueue} (h : q.WellTracked)
    (hbound : q.items.length < 2 ^ 31) : q.AcknowledgeDrops := by
  intro ack
  have hout : distance q.sndNxt q.sndUna = q.items.length := h.outstanding (by omega)
  by_cases hok : 1 ≤ distance ack q.sndUna ∧ distance ack q.sndUna ≤ q.items.length
  · obtain ⟨rest, he, hitems, -, -⟩ :=
      acknowledge_advanced h ack hok.1 (by omega) (by rw [hout]; exact hok.2)
    refine ⟨_, _, he, advanceTo_sndNxt _ _ _, ?_⟩
    rw [if_pos hok]
    exact ⟨by rw [advanceTo_items, hitems], advanceTo_sndUna _ _ _, rfl⟩
  · obtain ⟨q', status, he, hne, -, hq⟩ := acknowledge_ignored q ack (by omega)
    refine ⟨q', ⟨status, 0⟩, he, ?_, ?_⟩
    · rcases hq with rfl | ⟨-, rfl⟩ <;> rfl
    · rw [if_neg hok]
      rcases hq with rfl | ⟨-, rfl⟩ <;> exact ⟨rfl, rfl, rfl, hne, rfl⟩

/-- Every reachable open queue with fewer than `2 ^ 31` outstanding items is its
list of items: the fields describe it, `track` appends to it, `acknowledge`
drops from its front and never throws. -/
theorem reachable_refines_items {σ : Type} {cb : LawfulCallbacks σ} {q : RetransmissionQueue}
    (h : Reachable cb q) (hopen : q.closed = false) (hbound : q.items.length < 2 ^ 31) :
    q.DescribesItems ∧ q.TrackAppends ∧ q.AcknowledgeDrops := by
  have hw := h.sound hopen
  refine ⟨⟨(hw.outstanding (by omega)).symm, ?_, hw.inFlight⟩, trackAppends hopen,
    hw.acknowledgeDrops hbound⟩
  intro front segment back hsplit
  exact hw.segment_seq hsplit

/-- Callbacks that leave queue and owner alone. -/
def quietCallbacks : LawfulCallbacks Unit where
  onRetransmit q o _ _ := (q, o, false)
  onPersistProbe q o _ := (q, o, .returned)
  onExhausted q o _ _ := (q, o)
  onRetransmit_reentrant q _ _ _ := .refl q
  onPersistProbe_reentrant q _ _ := .refl q
  onExhausted_reentrant q _ _ _ := .refl q

/-- Four bytes around the end of sequence space, of which two are acknowledged. -/
theorem reachable_refines_items_wrap :
    ∃ q : RetransmissionQueue, q.items = [.byte 7, .byte 8] ∧ q.sndUna = 0#32 ∧
      q.DescribesItems ∧ q.TrackAppends ∧ q.AcknowledgeDrops := by
  let q₀ := new 0xfffffffe#32 1000 60000 4
  let q₁ := (q₀.append { seq := 0xfffffffe#32, payload := [5, 6, 7, 8], flags := {} }).armTimer
  let q₂ := q₁.advanceTo 0#32 [{ seq := 0#32, payload := [7, 8], flags := {}, sequenceLength := 2 }]
  have htrack : q₀.track { seq := 0xfffffffe#32, payload := [5, 6, 7, 8], flags := {} } =
    .ok (q₁, true) := rfl
  have hack : q₁.acknowledge 0#32 = .ok (q₂, ⟨.advanced, 2⟩) := by decide
  have hreach : Reachable quietCallbacks q₂ :=
    ⟨0xfffffffe#32, 1000, 60000, 4, (), (), [.track _, .acknowledge _],
      .snoc (t := (q₁, ())) (.single (.track htrack)) (.acknowledge hack)⟩
  exact ⟨q₂, rfl, rfl, reachable_refines_items hreach rfl (by decide)⟩

end RetransmissionQueue

end RootlessRelay
