import RootlessRelay.Tcp.Retransmission

/-!
# The sequence-space list behind a retransmission queue

A retransmission queue stands for a list of sequence-space items: a SYN, payload
bytes, a FIN. `items` reads that list off the segments, `WellTracked` says that
the five bookkeeping fields agree with it, and the lemmas below give `track` and
`acknowledge` as appending to it and dropping from its front.

How the items are cut into segments does not matter to a lemma outside of this
module. Numbers are positions in the library's sequence space, so nothing here
looks at the wrap: `Contiguous` says that a segment starts where the one before
it ends, and distances between positions do the rest.
-/

namespace RootlessRelay

open SequenceSpace

/-- One unit of sequence space. SYN and FIN take up a number each, as a byte
does. -/
inductive Item
  | syn
  | byte (b : Byte)
  | fin
  deriving DecidableEq, Repr

/-- The item is payload. -/
def Item.isByte : Item → Bool
  | .byte _ => true
  | _ => false

/-- The payload bytes among a list of items, in their order. -/
def dataOf (items : List Item) : Bytes :=
  items.filterMap fun | .byte b => some b | _ => none

@[simp] theorem dataOf_nil : dataOf [] = [] := rfl

@[simp] theorem dataOf_append (xs ys : List Item) : dataOf (xs ++ ys) = dataOf xs ++ dataOf ys := by
  simp [dataOf]

@[simp] theorem dataOf_bytes (payload : Bytes) : dataOf (payload.map .byte) = payload := by
  simp [dataOf, List.filterMap_map]

theorem dataOf_length_le (xs : List Item) : (dataOf xs).length ≤ xs.length :=
  List.length_filterMap_le _ _

/-- The items of a segment: a SYN in front, the payload, and a FIN behind. -/
def itemsOf (payload : Bytes) (flags : Flags) : List Item :=
  (if flags.syn then [.syn] else []) ++ payload.map .byte ++ (if flags.fin then [.fin] else [])

@[simp] theorem itemsOf_length (payload : Bytes) (flags : Flags) :
    (itemsOf payload flags).length = sequenceLength payload flags := by
  cases hs : flags.syn <;> cases hf : flags.fin <;>
    simp [itemsOf, sequenceLength, hs, hf, Nat.add_comm, Nat.add_left_comm]

@[simp] theorem dataOf_itemsOf (payload : Bytes) (flags : Flags) :
    dataOf (itemsOf payload flags) = payload := by
  cases hs : flags.syn <;> cases hf : flags.fin <;> simp [itemsOf, hs, hf, dataOf, List.filterMap_map]

/-- What a tracked segment still holds, as items. -/
def Segment.items (segment : Segment) : List Item := itemsOf segment.payload segment.flags

/-- The items of consecutive segments, however they are cut. -/
def segmentItems (segments : List Segment) : List Item := segments.flatMap Segment.items

@[simp] theorem segmentItems_nil : segmentItems [] = [] := rfl

@[simp] theorem segmentItems_cons (segment : Segment) (rest : List Segment) :
    segmentItems (segment :: rest) = segment.items ++ segmentItems rest := rfl

@[simp] theorem segmentItems_append (xs ys : List Segment) :
    segmentItems (xs ++ ys) = segmentItems xs ++ segmentItems ys := by
  simp [segmentItems]

/-- The payload bytes of consecutive segments are those of their items. -/
theorem dataOf_segmentItems (segments : List Segment) :
    dataOf (segmentItems segments) = segments.flatMap Segment.payload := by
  induction segments with
  | nil => rfl
  | cons segment rest ih =>
      rw [segmentItems_cons, dataOf_append, ih, Segment.items, dataOf_itemsOf, List.flatMap_cons]

/-- Consecutive segments starting at `una`: each is numbered by the items before
it and occupies at least one place. -/
def Contiguous : Seq → List Segment → Prop
  | _, [] => True
  | una, segment :: rest =>
    segment.seq = una ∧ segment.sequenceLength = segment.items.length ∧
      0 < segment.sequenceLength ∧ Contiguous (position una segment.sequenceLength) rest

theorem contiguous_append {una : Seq} {xs ys : List Segment} :
    Contiguous una (xs ++ ys) ↔
      Contiguous una xs ∧ Contiguous (position una (segmentItems xs).length) ys := by
  induction xs generalizing una with
  | nil => simp [Contiguous]
  | cons segment rest ih =>
      simp only [List.cons_append, Contiguous, ih, segmentItems_cons, List.length_append]
      constructor
      · rintro ⟨hseq, hlen, hpos, hrest, hys⟩
        exact ⟨⟨hseq, hlen, hpos, hrest⟩, by rwa [← position_add, ← hlen]⟩
      · rintro ⟨⟨hseq, hlen, hpos, hrest⟩, hys⟩
        exact ⟨hseq, hlen, hpos, hrest, by rwa [hlen, position_add]⟩

theorem contiguous_items_ne_nil {una : Seq} {segments : List Segment}
    (h : Contiguous una segments) (hne : segments ≠ []) : segmentItems segments ≠ [] := by
  cases segments with
  | nil => exact absurd rfl hne
  | cons segment rest =>
      obtain ⟨-, hlen, hpos, -⟩ := h
      intro hnil
      have hl := congrArg List.length hnil
      simp only [segmentItems_cons, List.length_append, List.length_nil] at hl
      omega

namespace RetransmissionQueue

/-- The abstract content of a queue: the abstraction function of the refinement. -/
def items (q : RetransmissionQueue) : List Item := segmentItems q.segments

/-- All bookkeeping fields describe the same list of items. -/
structure WellTracked (q : RetransmissionQueue) : Prop where
  contiguous : Contiguous q.sndUna q.segments
  next : q.sndNxt = position q.sndUna q.items.length
  inFlight : q.payloadBytesInFlight = (dataOf q.items).length

theorem WellTracked.congr {q q' : RetransmissionQueue} (h : q.WellTracked)
    (hseg : q'.segments = q.segments) (huna : q'.sndUna = q.sndUna)
    (hnxt : q'.sndNxt = q.sndNxt)
    (hfly : q'.payloadBytesInFlight = q.payloadBytesInFlight) : q'.WellTracked := by
  have hitems : q'.items = q.items := by simp only [items, hseg]
  exact ⟨by rw [huna, hseg]; exact h.contiguous, by rw [hnxt, huna, hitems]; exact h.next,
    by rw [hfly, hitems]; exact h.inFlight⟩

theorem new_wellTracked (isn : Seq) (initialRtoMs maxRtoMs maxRetransmissions : Nat) :
    (new isn initialRtoMs maxRtoMs maxRetransmissions).WellTracked :=
  ⟨trivial, (position_zero isn).symm, rfl⟩

theorem WellTracked.outstanding {q : RetransmissionQueue} (h : q.WellTracked)
    (hbound : q.items.length < 2 ^ 32) :
    sequenceDistance q.sndNxt q.sndUna = q.items.length := by
  change distance q.sndNxt q.sndUna = _
  rw [h.next, distance_position_self, Nat.mod_eq_of_lt hbound]

theorem WellTracked.hasOutstanding_iff {q : RetransmissionQueue} (h : q.WellTracked) :
    q.segments ≠ [] ↔ q.items ≠ [] := by
  constructor
  · exact contiguous_items_ne_nil h.contiguous
  · intro hne hnil
    exact hne (by simp [items, hnil])

/-- The segment after `front` is numbered by the items of `front`, counted from
`sndUna`. -/
theorem WellTracked.segment_seq {q : RetransmissionQueue} (h : q.WellTracked)
    {front back : List Segment} {segment : Segment}
    (hsplit : q.segments = front ++ segment :: back) :
    segment.seq = position q.sndUna (segmentItems front).length ∧
      segment.sequenceLength = segment.items.length ∧ 0 < segment.sequenceLength := by
  have hc := h.contiguous
  rw [hsplit, contiguous_append] at hc
  exact ⟨hc.2.1, hc.2.2.1, hc.2.2.2.1⟩

section Frame

variable (q : RetransmissionQueue)

@[simp] theorem armTimer_segments : q.armTimer.segments = q.segments := by
  unfold armTimer; split <;> rfl

@[simp] theorem armTimer_sndUna : q.armTimer.sndUna = q.sndUna := by
  unfold armTimer; split <;> rfl

@[simp] theorem armTimer_sndNxt : q.armTimer.sndNxt = q.sndNxt := by
  unfold armTimer; split <;> rfl

@[simp] theorem armTimer_payloadBytesInFlight :
    q.armTimer.payloadBytesInFlight = q.payloadBytesInFlight := by
  unfold armTimer; split <;> rfl

@[simp] theorem armTimer_closed : q.armTimer.closed = q.closed := by
  unfold armTimer; split <;> rfl

@[simp] theorem armTimer_exhausted : q.armTimer.exhausted = q.exhausted := by
  unfold armTimer; split <;> rfl

@[simp] theorem armTimer_persist : q.armTimer.persist = q.persist := by
  unfold armTimer; split <;> rfl

@[simp] theorem armTimer_items : q.armTimer.items = q.items := by
  simp only [items, armTimer_segments]

@[simp] theorem clearTimer_items : q.clearTimer.items = q.items := rfl

end Frame

theorem WellTracked.armTimer {q : RetransmissionQueue} (h : q.WellTracked) :
    q.armTimer.WellTracked := by
  apply h.congr <;> simp

theorem WellTracked.clearTimer {q : RetransmissionQueue} (h : q.WellTracked) :
    q.clearTimer.WellTracked := h.congr rfl rfl rfl rfl

/-- The queue `track` builds before it looks at the timer. -/
def append (q : RetransmissionQueue) (sent : SentSegment) : RetransmissionQueue :=
  let length := RootlessRelay.sequenceLength sent.payload sent.flags
  { q with
    segments := q.segments ++
      [{ seq := sent.seq, payload := sent.payload, flags := sent.flags, sequenceLength := length }]
    payloadBytesInFlight := q.payloadBytesInFlight + sent.payload.length
    sndNxt := q.sndNxt + BitVec.ofNat 32 length }

/-- Everything `track` can do. Callers take this apart instead of unfolding the
method. -/
theorem track_cases (q : RetransmissionQueue) (sent : SentSegment) :
    ((q.closed = true ∨ q.exhausted = true) ∧ q.track sent = .error .closedQueue) ∨
    (q.closed = false ∧ q.exhausted = false ∧ itemsOf sent.payload sent.flags = [] ∧
      q.track sent = .ok (q, false)) ∨
    (q.closed = false ∧ q.exhausted = false ∧ itemsOf sent.payload sent.flags ≠ [] ∧
      sent.seq ≠ q.sndNxt ∧ q.track sent = .error (.nonContiguous q.sndNxt sent.seq)) ∨
    (q.closed = false ∧ q.exhausted = false ∧ itemsOf sent.payload sent.flags ≠ [] ∧
      sent.seq = q.sndNxt ∧
      q.track sent = .ok (if q.segments = [] ∧ q.timer = none then (q.append sent).armTimer
        else q.append sent, true)) := by
  have hnil : itemsOf sent.payload sent.flags = [] ↔
      RootlessRelay.sequenceLength sent.payload sent.flags = 0 := by
    rw [← itemsOf_length, List.length_eq_zero_iff]
  unfold track
  by_cases hopen : q.closed || q.exhausted
  · rw [if_pos hopen]
    exact .inl ⟨by simpa using hopen, rfl⟩
  · rw [if_neg hopen]
    simp only [Bool.or_eq_true, not_or, Bool.not_eq_true] at hopen
    obtain ⟨hclosed, hexhausted⟩ := hopen
    by_cases hlen : RootlessRelay.sequenceLength sent.payload sent.flags = 0
    · rw [if_pos hlen]
      exact .inr (.inl ⟨hclosed, hexhausted, hnil.mpr hlen, rfl⟩)
    · rw [if_neg hlen]
      have hitems := mt hnil.mp hlen
      by_cases hseq : sent.seq = q.sndNxt
      · rw [if_neg (not_not_intro hseq)]
        refine .inr (.inr (.inr ⟨hclosed, hexhausted, hitems, hseq, ?_⟩))
        by_cases ht : q.segments = [] ∧ q.timer = none
        · rw [if_pos ht, if_pos]
          · rfl
          · simpa using ht
        · rw [if_neg ht, if_neg]
          · rfl
          · simpa using ht
      · rw [if_pos hseq]
        exact .inr (.inr (.inl ⟨hclosed, hexhausted, hitems, hseq, rfl⟩))

@[simp] theorem append_items (q : RetransmissionQueue) (sent : SentSegment) :
    (q.append sent).items = q.items ++ itemsOf sent.payload sent.flags := by
  simp [items, append, Segment.items]

@[simp] theorem append_sndUna (q : RetransmissionQueue) (sent : SentSegment) :
    (q.append sent).sndUna = q.sndUna := rfl

/-- A segment that begins at `sndNxt` and occupies sequence space extends the
items of the queue. -/
theorem WellTracked.append {q : RetransmissionQueue} (h : q.WellTracked) {sent : SentSegment}
    (hseq : sent.seq = q.sndNxt) (hitems : itemsOf sent.payload sent.flags ≠ []) :
    (q.append sent).WellTracked := by
  have hlen : 0 < RootlessRelay.sequenceLength sent.payload sent.flags := by
    rw [← itemsOf_length]
    exact List.length_pos_iff.mpr hitems
  refine ⟨?_, ?_, ?_⟩
  · change Contiguous q.sndUna (q.segments ++ [_])
    rw [contiguous_append]
    refine ⟨h.contiguous, ?_, ?_, hlen, trivial⟩
    · rw [hseq]
      exact h.next
    · simp [Segment.items]
  · rw [append_items, List.length_append, itemsOf_length, ← position_add]
    change position q.sndNxt _ = _
    rw [h.next]
    rfl
  · rw [append_items, dataOf_append, List.length_append, dataOf_itemsOf, ← h.inFlight]
    rfl

/-- A partial acknowledgement inside one segment consumes exactly `count` items,
whether it ends in the SYN, in the payload or before the FIN. -/
theorem consumeSegmentPrefix_spec {segment : Segment} {count : Nat}
    (hlen : segment.sequenceLength = segment.items.length) (hpos : 0 < count)
    (hlt : count < segment.sequenceLength) :
    ∃ rest, consumeSegmentPrefix segment count =
        .ok (rest, (dataOf (segment.items.take count)).length) ∧
      rest.items = segment.items.drop count ∧ rest.seq = position segment.seq count ∧
      rest.sequenceLength = rest.items.length ∧ 0 < rest.sequenceLength := by
  obtain ⟨seq, payload, flags, length, resent⟩ := segment
  obtain ⟨syn, fin, rst, psh, ack, windowSize⟩ := flags
  simp only [Segment.items, itemsOf_length, sequenceLength] at hlen hlt
  have hbound : count ≤ syn.toNat + payload.length := by
    cases fin <;> simp_all <;> omega
  have hresult : consumeSegmentPrefix ⟨seq, payload, ⟨syn, fin, rst, psh, ack, windowSize⟩,
      length, resent⟩ count =
      .ok (⟨seq + BitVec.ofNat 32 count, payload.drop (count - syn.toNat),
        ⟨false, fin, rst, psh, ack, windowSize⟩, length - count, resent⟩,
        count - syn.toNat) := by
    have hleft : length - count ≠ 0 := by omega
    cases syn with
    | false =>
        have hp : count ≤ payload.length := by simpa using hbound
        have hne : 0 < payload.length := Nat.lt_of_lt_of_le hpos hp
        simp [consumeSegmentPrefix, hpos, hne, Nat.min_eq_left hp, hleft]
    | true =>
        have hp : count - 1 ≤ payload.length := by
          simp only [Bool.toNat_true] at hbound
          omega
        have hpred : length - 1 - (count - 1) = length - count := by omega
        by_cases hone : count = 1
        · subst hone
          simp [consumeSegmentPrefix, hleft]
        · have hmore : 0 < count - 1 := by omega
          have hne : 0 < payload.length := Nat.lt_of_lt_of_le hmore hp
          simp [consumeSegmentPrefix, hpos, hne, hmore, Nat.min_eq_left hp, hpred, hleft]
  have hdrop : itemsOf (payload.drop (count - syn.toNat)) ⟨false, fin, rst, psh, ack, windowSize⟩ =
      (itemsOf payload ⟨syn, fin, rst, psh, ack, windowSize⟩).drop count := by
    cases syn with
    | false =>
        have hp : count ≤ payload.length := by simpa using hbound
        simp [itemsOf, List.drop_append_of_le_length, hp, List.map_drop]
    | true =>
        obtain ⟨k, rfl⟩ := Nat.exists_eq_add_of_lt hpos
        have hp : k ≤ payload.length := by
          simp only [Bool.toNat_true] at hbound
          omega
        simp [itemsOf, List.drop_append_of_le_length, hp, List.map_drop]
  have htake : (dataOf ((itemsOf payload ⟨syn, fin, rst, psh, ack, windowSize⟩).take count)).length =
      count - syn.toNat := by
    have hall := congrArg (fun xs => (dataOf xs).length)
      (List.take_append_drop count (itemsOf payload ⟨syn, fin, rst, psh, ack, windowSize⟩))
    simp only [dataOf_append, List.length_append, dataOf_itemsOf, ← hdrop, List.length_drop] at hall
    omega
  refine ⟨_, hresult.trans (congrArg (fun n => Except.ok (_, n)) htake.symm), hdrop, rfl, ?_, ?_⟩
  · change length - count = (itemsOf _ _).length
    rw [hdrop, List.length_drop, itemsOf_length, hlen]
    rfl
  · change 0 < length - count
    omega

/-- The loop removes the first `count` items, however they are cut into
segments; one of these may be cut in two. -/
theorem acknowledgeLoop_spec {una : Seq} {segments : List Segment} {count : Nat}
    (acked inFlight : Nat) (h : Contiguous una segments)
    (hcount : count ≤ (segmentItems segments).length) :
    ∃ rest, acknowledgeLoop count acked inFlight segments =
        .ok (rest, acked + (dataOf ((segmentItems segments).take count)).length,
          inFlight - (dataOf ((segmentItems segments).take count)).length) ∧
      segmentItems rest = (segmentItems segments).drop count ∧
      Contiguous (position una count) rest := by
  induction segments generalizing una count acked inFlight with
  | nil =>
      have hz : count = 0 := by simpa using hcount
      subst hz
      exact ⟨[], by simp [acknowledgeLoop], by simp, trivial⟩
  | cons segment rest ih =>
      obtain ⟨hseq, hlen, hpos, hrest⟩ := h
      by_cases hz : count = 0
      · subst hz
        exact ⟨segment :: rest, by simp [acknowledgeLoop], by simp,
          by rw [position_zero]; exact ⟨hseq, hlen, hpos, hrest⟩⟩
      by_cases hge : segment.sequenceLength ≤ count
      · have hrem : count - segment.sequenceLength ≤ (segmentItems rest).length := by
          rw [segmentItems_cons, List.length_append, ← hlen] at hcount
          omega
        obtain ⟨left, hloop, hitems, hcontig⟩ := ih
          (acked + segment.payload.length) (inFlight - segment.payload.length) hrest hrem
        have hsplit : (segment.items ++ segmentItems rest).take count =
            segment.items ++ (segmentItems rest).take (count - segment.sequenceLength) := by
          rw [List.take_append, hlen, List.take_of_length_le (by omega)]
        have hdata : dataOf segment.items = segment.payload := dataOf_itemsOf _ _
        have hfull : segment.items.length ≤ count := hlen ▸ hge
        refine ⟨left, ?_, ?_, ?_⟩
        · simp only [acknowledgeLoop]
          rw [if_neg hz, if_pos hge, hloop, segmentItems_cons, hsplit, dataOf_append, hdata,
            List.length_append, Nat.add_assoc, Nat.sub_add_eq]
        · rw [hitems, segmentItems_cons, List.drop_append, hlen,
            List.drop_of_length_le hfull, List.nil_append]
        · rw [position_add, Nat.add_sub_of_le hge] at hcontig
          exact hcontig
      · have hlt : count < segment.sequenceLength := Nat.lt_of_not_le hge
        have hcut : count ≤ segment.items.length := by omega
        obtain ⟨left, hpart, hitems, hleftSeq, hleftLen, hleftPos⟩ :=
          consumeSegmentPrefix_spec hlen (Nat.pos_of_ne_zero hz) hlt
        have htake : (segmentItems (segment :: rest)).take count = segment.items.take count := by
          rw [segmentItems_cons, List.take_append_of_le_length hcut]
        refine ⟨left :: rest, ?_, ?_, ?_⟩
        · simp only [acknowledgeLoop]
          rw [if_neg hz, if_neg hge, hpart, htake]
        · rw [segmentItems_cons, segmentItems_cons, hitems, List.drop_append_of_le_length hcut]
        · have hdropped : left.sequenceLength = segment.sequenceLength - count := by
            rw [hleftLen, hitems, List.length_drop, hlen]
          refine ⟨by rw [hleftSeq, hseq], hleftLen, hleftPos, ?_⟩
          rw [position_add, hdropped, Nat.add_sub_of_le (Nat.le_of_lt hlt)]
          exact hrest

/-- The queue after an acknowledgement that moved `sndUna` to `ack` and left
`segments` behind. -/
def advanceTo (q : RetransmissionQueue) (ack : Seq) (segments : List Segment) :
    RetransmissionQueue :=
  { q with
    segments
    payloadBytesInFlight := (dataOf (segmentItems segments)).length
    sndUna := ack
    timeoutRetransmissions := 0
    currentRtoMs := if q.persist then q.currentRtoMs else q.initialRtoMs }.clearTimer.armTimer

section AdvanceTo

variable (q : RetransmissionQueue) (ack : Seq) (segments : List Segment)

@[simp] theorem advanceTo_segments : (q.advanceTo ack segments).segments = segments := by
  simp [advanceTo, RetransmissionQueue.clearTimer]

@[simp] theorem advanceTo_items : (q.advanceTo ack segments).items = segmentItems segments := by
  simp [items]

@[simp] theorem advanceTo_sndUna : (q.advanceTo ack segments).sndUna = ack := by
  simp [advanceTo, RetransmissionQueue.clearTimer]

@[simp] theorem advanceTo_sndNxt : (q.advanceTo ack segments).sndNxt = q.sndNxt := by
  simp [advanceTo, RetransmissionQueue.clearTimer]

@[simp] theorem advanceTo_persist : (q.advanceTo ack segments).persist = q.persist := by
  simp [advanceTo, RetransmissionQueue.clearTimer]

@[simp] theorem advanceTo_closed : (q.advanceTo ack segments).closed = q.closed := by
  simp [advanceTo, RetransmissionQueue.clearTimer]

@[simp] theorem advanceTo_exhausted : (q.advanceTo ack segments).exhausted = q.exhausted := by
  simp [advanceTo, RetransmissionQueue.clearTimer]

end AdvanceTo

/-- An acceptable acknowledgement drops exactly the items it covers, and reports
their data bytes. -/
theorem acknowledge_advanced {q : RetransmissionQueue} (h : q.WellTracked) (ack : Seq)
    (hpos : 0 < distance ack q.sndUna) (hhalf : distance ack q.sndUna < 2 ^ 31)
    (hout : distance ack q.sndUna ≤ distance q.sndNxt q.sndUna) :
    ∃ rest, q.acknowledge ack = .ok (q.advanceTo ack rest, ⟨.advanced,
        (dataOf (q.items.take (distance ack q.sndUna))).length⟩) ∧
      segmentItems rest = q.items.drop (distance ack q.sndUna) ∧
      distance ack q.sndUna ≤ q.items.length ∧ (q.advanceTo ack rest).WellTracked := by
  have hle : distance ack q.sndUna ≤ q.items.length := by
    refine Nat.le_trans hout ?_
    rw [h.next, distance_position_self]
    exact Nat.mod_le _ _
  obtain ⟨rest, hloop, hitems, hcontig⟩ := acknowledgeLoop_spec 0
    q.payloadBytesInFlight h.contiguous hle
  rw [position_distance] at hcontig
  have hsum : (dataOf (q.items.take (distance ack q.sndUna))).length +
      (dataOf (segmentItems rest)).length = (dataOf q.items).length := by
    rw [hitems, ← List.length_append, ← dataOf_append]
    exact congrArg (fun xs => (dataOf xs).length) (List.take_append_drop _ _)
  have hfly : q.payloadBytesInFlight -
      (dataOf (q.items.take (distance ack q.sndUna))).length =
        (dataOf (segmentItems rest)).length := by
    have := h.inFlight
    omega
  refine ⟨rest, ?_, hitems, hle, ?_⟩
  · unfold acknowledge
    change (if distance ack q.sndUna = 0 then _ else if distance ack q.sndUna ≥ _ then _ else
      if distance ack q.sndUna > distance q.sndNxt q.sndUna then _ else _) = _
    rw [if_neg (Nat.ne_of_gt hpos), if_neg (by simp only [HALF_SEQUENCE_SPACE]; omega),
      if_neg (Nat.not_lt.mpr hout)]
    have hloop' : acknowledgeLoop (sequenceDistance ack q.sndUna) 0
        q.payloadBytesInFlight q.segments = _ :=
      hloop
    rw [hloop']
    simp only [Nat.zero_add]
    change Except.ok (RetransmissionQueue.armTimer (RetransmissionQueue.clearTimer
      { q with
        segments := rest
        payloadBytesInFlight := q.payloadBytesInFlight -
          (dataOf (q.items.take (distance ack q.sndUna))).length
        sndUna := ack
        timeoutRetransmissions := 0
        currentRtoMs := if q.persist then q.currentRtoMs else q.initialRtoMs }), _) = _
    rw [hfly]
    rfl
  · refine WellTracked.armTimer (WellTracked.clearTimer ⟨hcontig, ?_, rfl⟩)
    change q.sndNxt = position ack (segmentItems rest).length
    calc q.sndNxt = position q.sndUna q.items.length := h.next
      _ = position (position q.sndUna (distance ack q.sndUna))
            (q.items.length - distance ack q.sndUna) := by
          rw [position_add, Nat.add_sub_of_le hle]
      _ = position ack (segmentItems rest).length := by
          rw [position_distance, hitems, List.length_drop]
          rfl

/-- Every other acknowledgement number is only classified; a duplicate in
persist mode renews the probe budget. -/
theorem acknowledge_ignored (q : RetransmissionQueue) (ack : Seq)
    (h : distance ack q.sndUna = 0 ∨ 2 ^ 31 ≤ distance ack q.sndUna ∨
      distance q.sndNxt q.sndUna < distance ack q.sndUna) :
    ∃ q' status, q.acknowledge ack = .ok (q', ⟨status, 0⟩) ∧ status ≠ .advanced ∧
      (status = .duplicate ↔ ack = q.sndUna) ∧
      (q' = q ∨ status = .duplicate ∧ q' = { q with timeoutRetransmissions := 0 }) := by
  have heq : ack = q.sndUna ↔ distance ack q.sndUna = 0 := distance_eq_zero.symm
  unfold acknowledge
  change ∃ q' status, (if distance ack q.sndUna = 0 then _ else
      if distance ack q.sndUna ≥ HALF_SEQUENCE_SPACE then _ else
      if distance ack q.sndUna > distance q.sndNxt q.sndUna then _ else _) = _ ∧ _
  by_cases hz : distance ack q.sndUna = 0
  · rw [if_pos hz]
    by_cases hp : q.persist = true
    · exact ⟨_, .duplicate, by rw [if_pos hp], by decide, by simp [heq, hz], .inr ⟨rfl, rfl⟩⟩
    · exact ⟨_, .duplicate, by rw [if_neg hp], by decide, by simp [heq, hz], .inl rfl⟩
  rw [if_neg hz]
  by_cases hs : distance ack q.sndUna ≥ HALF_SEQUENCE_SPACE
  · exact ⟨q, .stale, by rw [if_pos hs], by decide, by simp [heq, hz], .inl rfl⟩
  rw [if_neg hs]
  simp only [HALF_SEQUENCE_SPACE] at hs
  have hf : distance ack q.sndUna > distance q.sndNxt q.sndUna := by omega
  exact ⟨q, .future, by rw [if_pos hf], by decide, by simp [heq, hz], .inl rfl⟩

/-- Everything an `acknowledge` that returns can do to the queue: nothing, or an
advance. -/
theorem acknowledge_cases {q q' : RetransmissionQueue} {ack : Seq} {result : AckResult}
    (hack : q.acknowledge ack = .ok (q', result)) :
    (q' = q ∧ result.status ≠ .advanced ∧ (result.status = .duplicate → q.persist = false)) ∨
    (q' = { q with timeoutRetransmissions := 0 } ∧ result.status = .duplicate ∧
      q.persist = true) ∨
    (result.status = .advanced ∧ q.segments ≠ [] ∧ ∃ segments inFlight,
      q' = { q with
        segments := segments
        payloadBytesInFlight := inFlight
        sndUna := ack
        timeoutRetransmissions := 0
        currentRtoMs := if q.persist then q.currentRtoMs else q.initialRtoMs
      }.clearTimer.armTimer) := by
  unfold acknowledge at hack
  dsimp only at hack
  split at hack
  · split at hack
    · rename_i hpersist
      cases hack
      exact .inr (.inl ⟨rfl, rfl, hpersist⟩)
    · rename_i hpersist
      cases hack
      exact .inl ⟨rfl, nofun, fun _ => by simpa using hpersist⟩
  rename_i hne
  split at hack
  · cases hack
    exact .inl ⟨rfl, nofun, nofun⟩
  split at hack
  · cases hack
    exact .inl ⟨rfl, nofun, nofun⟩
  split at hack
  · cases hack
  · rename_i segments bytes inFlight hloop
    cases hack
    refine .inr (.inr ⟨rfl, ?_, segments, inFlight, rfl⟩)
    intro hnil
    rw [hnil, acknowledgeLoop, if_pos (Nat.pos_of_ne_zero hne)] at hloop
    cases hloop

end RetransmissionQueue

end RootlessRelay
