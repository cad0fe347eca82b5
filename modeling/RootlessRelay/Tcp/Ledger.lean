import RootlessRelay.SlidingWindow
import RootlessRelay.Tcp.Sending

/-!
# The sender's ledger

What the sending side of a connection is for, without queues of segments, timers
or callbacks. A ledger knows one outgoing stream, what has been emitted of it
and where, and four limits: the advertised window, the congestion window, the
limiter, and whether the endpoint has been asked to pause. Its deeds are all
that can happen to them.

What every deed keeps is proved here, about the ledger alone: every segment is
cut from one stream, the windows are earned by acknowledgements, and the queue
stays bounded for an endpoint that heeds the pause. That a connection does
nothing but these deeds is the subject of the modules on its books.
-/

namespace RootlessRelay

open SendStream Transition

/-- The books of an open sender: the part of a ledger that counts only until the
sender is closed. -/
structure Standing where
  stream : State Item Byte
  window : Nat
  congestion : Nat
  paused : Bool

/-- `isn` is the number of the first item. `emitted` lists, in order, the place
and the items of each segment that occupies sequence space. -/
structure Ledger extends Standing where
  isn : Seq
  emitted : List (Nat × List Item) := []
  rateLimiter : SlidingWindowRateLimiter
  closed : Bool := false

/-- What can happen to a sender. `transmit` sends new payload, and its first
argument is the time at which the limiter was asked, if it was. -/
inductive Deed
  | enqueue (data : Bytes)
  | refuse (now count : Nat)
  | transmit (asked : Option Nat) (count : Nat)
  | probe
  | finish
  | again (place : Nat) (items : List Item)
  | acknowledge (count congestion : Nat)
  | reduce (congestion : Nat)
  | advertise (window : Nat)
  | lend (rateLimiter : SlidingWindowRateLimiter)
  | close

namespace Ledger

/-- Payload that has been sent and not acknowledged. -/
def inFlight (l : Ledger) : Nat := (dataOf l.stream.outstanding).length

/-- The smaller of the two windows; a congestion window of zero counts as not
set. -/
def allowance (cfg : Settings) (l : Ledger) : Nat :=
  min l.window (if l.congestion = 0 then cfg.initialCwndBytes else l.congestion)

/-- What can be outstanding at once: the payload that a window of 16 bits lets
through, a SYN and two FINs. -/
def flightLimit : Nat := 65538

/-- The limiter that is left when it has granted `count` bytes, or has not been
asked. -/
def Grants (rateLimiter : SlidingWindowRateLimiter) (asked : Option Nat) (count : Nat)
    (left : SlidingWindowRateLimiter) : Prop :=
  match asked with
  | some now => rateLimiter.tryConsume now count = (left, true)
  | none => left = rateLimiter

/-- The next items of the stream leave in one segment, behind everything before. -/
def place (l : Ledger) (items : List Item) : List (Nat × List Item) :=
  l.emitted ++ [(l.stream.history.length, items)]

/-- Taking bytes off the queue may let the endpoint resume. -/
def resumed (cfg : Settings) (l : Ledger) (stream : State Item Byte) : Bool :=
  l.paused && !decide (stream.queued.length ≤ cfg.sendQueueLowWaterBytes)

/-- The conditions and the effect of each deed. -/
inductive Step (cfg : Settings) : Ledger → Deed → Ledger → Prop
  | enqueue {l : Ledger} {data : Bytes} {stream : State Item Byte} (opened : l.closed = false)
      (nonempty : data ≠ [])
      (moved : SendStream.Step itemFormat l.stream (.enqueue data) stream) :
      Step cfg l (.enqueue data) { l with
        stream
        paused := l.paused || decide (stream.queued.length ≥ cfg.sendQueueHighWaterBytes) }
  | refuse {l : Ledger} {now count : Nat} {rateLimiter : SlidingWindowRateLimiter}
      (opened : l.closed = false)
      (denied : l.rateLimiter.tryConsume now count = (rateLimiter, false)) :
      Step cfg l (.refuse now count) { l with rateLimiter }
  | transmit {l : Ledger} {asked : Option Nat} {count : Nat} {stream : State Item Byte}
      {rateLimiter : SlidingWindowRateLimiter} (opened : l.closed = false) (pos : 0 < count)
      (short : count ≤ cfg.TCP_MSS) (queued : count ≤ l.stream.queued.length)
      (room : l.inFlight + count ≤ l.allowance cfg)
      (flight : l.stream.outstanding.length + count ≤ flightLimit)
      (granted : Grants l.rateLimiter asked count rateLimiter)
      (moved : SendStream.Step itemFormat l.stream (.transmit count) stream) :
      Step cfg l (.transmit asked count) { l with
        stream
        rateLimiter
        emitted := l.place ((l.stream.queued.take count).map .byte)
        paused := l.resumed cfg stream }
  | probe {l : Ledger} {stream : State Item Byte} (opened : l.closed = false)
      (idle : l.stream.outstanding = []) (queued : 0 < l.stream.queued.length)
      (moved : SendStream.Step itemFormat l.stream (.transmit 1) stream) :
      Step cfg l .probe { l with
        stream
        emitted := l.place ((l.stream.queued.take 1).map .byte)
        paused := l.resumed cfg stream }
  | finish {l : Ledger} {stream : State Item Byte} (opened : l.closed = false)
      (flight : l.stream.outstanding.length < flightLimit)
      (moved : SendStream.Step itemFormat l.stream .finish stream) :
      Step cfg l .finish { l with stream, emitted := l.place [.fin] }
  | again {l : Ledger} {place : Nat} {items : List Item} (opened : l.closed = false)
      (some : items ≠ []) (unacked : l.stream.acknowledged.length ≤ place)
      (cut : items <+: l.stream.history.drop place)
      (near : l.stream.history.length ≤ place + flightLimit) :
      Step cfg l (.again place items) { l with emitted := l.emitted ++ [(place, items)] }
  | acknowledge {l : Ledger} {count congestion : Nat} {stream : State Item Byte}
      (opened : l.closed = false) (sent : count ≤ l.stream.outstanding.length)
      (growth : congestion ≤ max l.congestion cfg.TCP_MSS +
        (dataOf (l.stream.outstanding.take count)).length)
      (moved : SendStream.Step itemFormat l.stream (.acknowledge count) stream) :
      Step cfg l (.acknowledge count congestion) { l with stream, congestion }
  | reduce {l : Ledger} {congestion : Nat} (opened : l.closed = false)
      (bound : congestion ≤ max (2 * cfg.TCP_MSS) l.inFlight) :
      Step cfg l (.reduce congestion) { l with congestion }
  | advertise {l : Ledger} {window : Nat} (opened : l.closed = false) :
      Step cfg l (.advertise window) { l with window }
  | lend (l : Ledger) (rateLimiter : SlidingWindowRateLimiter) :
      Step cfg l (.lend rateLimiter) { l with rateLimiter }
  | close {l : Ledger} (opened : l.closed = false) : Step cfg l .close { l with closed := true }

variable {cfg : Settings} {l l' : Ledger} {deed : Deed}

/-- Every segment is cut from the stream, at its own place. -/
def Consistent (l : Ledger) : Prop :=
  ∀ place items, (place, items) ∈ l.emitted → items <+: l.stream.history.drop place

/-- A longer stream leaves the earlier segments in their places. -/
theorem Consistent.grow (h : l.Consistent) {history : List Item}
    (hgrown : l.stream.history <+: history) {place : Nat} {items : List Item}
    (hmem : (place, items) ∈ l.emitted) : items <+: history.drop place :=
  (h place items hmem).trans (hgrown.drop place)

/-- New items stand behind everything that has been placed before. -/
theorem Consistent.place (h : l.Consistent) {items : List Item} {history : List Item}
    (hhistory : history = l.stream.history ++ items) :
    ∀ place items', (place, items') ∈ l.place items → items' <+: history.drop place := by
  intro place items' hmem
  rcases List.mem_append.mp hmem with hold | hnew
  · exact h.grow ⟨items, hhistory.symm⟩ hold
  · obtain ⟨rfl, rfl⟩ := Prod.mk.inj (List.mem_singleton.mp hnew)
    rw [hhistory, List.drop_left]

/-- Every deed leaves all segments cut from the stream; the stream only grows at
its end. -/
theorem Step.consistent (step : Step cfg l deed l') (h : l.Consistent) : l'.Consistent := by
  cases step with
  | enqueue opened nonempty moved =>
      exact fun place items hmem => h.grow moved.history_prefix hmem
  | transmit opened pos short queued room flight granted moved =>
      refine h.place ?_
      cases moved
      simp only [State.history, List.append_assoc]
      rfl
  | probe opened idle queued moved =>
      refine h.place ?_
      cases moved
      simp only [State.history, List.append_assoc]
      rfl
  | finish opened flight moved =>
      refine h.place ?_
      cases moved
      simp only [State.history, List.append_assoc]
      rfl
  | again opened some unacked cut near =>
      intro place items hmem
      rcases List.mem_append.mp hmem with hold | hnew
      · exact h place items hold
      · obtain ⟨rfl, rfl⟩ := Prod.mk.inj (List.mem_singleton.mp hnew)
        exact cut
  | acknowledge opened sent growth moved =>
      exact fun place items hmem => h.grow moved.history_prefix hmem
  | _ => exact h

/-- No payload is lost, repeated or reordered on the way into sequence space. -/
theorem Step.conserved (step : Step cfg l deed l') (h : l.stream.Conserved itemFormat) :
    l'.stream.Conserved itemFormat := by
  cases step with
  | enqueue opened nonempty moved => exact moved.conserved h
  | transmit opened pos short queued room flight granted moved => exact moved.conserved h
  | probe opened idle queued moved => exact moved.conserved h
  | finish opened flight moved => exact moved.conserved h
  | acknowledge opened sent growth moved => exact moved.conserved h
  | _ => exact h

/-- What the sender has earned: a start, and every payload byte that has been
acknowledged. -/
def credit (cfg : Settings) (l : Ledger) : Nat :=
  max cfg.initialCwndBytes (2 * cfg.TCP_MSS) + (dataOf l.stream.acknowledged).length

/-- Neither the congestion window nor the payload in flight exceeds what was
earned. -/
structure Solvent (cfg : Settings) (l : Ledger) : Prop where
  congestion : l.congestion ≤ l.credit cfg
  inFlight : l.inFlight ≤ l.credit cfg

theorem allowance_le (h : l.Solvent cfg) : l.allowance cfg ≤ l.credit cfg := by
  have hstart : cfg.initialCwndBytes ≤ l.credit cfg :=
    (Nat.le_max_left _ _).trans (Nat.le_add_right _ _)
  have hcongestion := h.congestion
  unfold allowance
  split <;> omega

theorem two_mss_le_credit (cfg : Settings) (l : Ledger) : 2 * cfg.TCP_MSS ≤ l.credit cfg :=
  (Nat.le_max_right _ _).trans (Nat.le_add_right _ _)

/-- Every deed keeps the sender solvent. A transmission stays within the
allowance, and an acknowledgement adds to the credit what it takes from the
flight. -/
theorem Step.solvent (step : Step cfg l deed l') (h : l.Solvent cfg) : l'.Solvent cfg := by
  have hmss := cfg.TCP_MSS_pos
  have hearned := two_mss_le_credit cfg l
  have hcongestion := h.congestion
  have hflight := h.inFlight
  cases step with
  | enqueue opened nonempty moved =>
      cases moved
      exact ⟨hcongestion, hflight⟩
  | refuse => exact ⟨hcongestion, hflight⟩
  | @transmit _ count _ _ opened pos short queued room flight granted moved =>
      have hroom := room.trans (allowance_le h)
      cases moved
      refine ⟨hcongestion, ?_⟩
      change (dataOf (l.stream.outstanding ++ (l.stream.queued.take count).map .byte)).length ≤
        l.credit cfg
      rw [dataOf_append, dataOf_bytes, List.length_append, List.length_take_of_le queued]
      exact hroom
  | probe opened idle queued moved =>
      cases moved
      refine ⟨hcongestion, ?_⟩
      change (dataOf (l.stream.outstanding ++ (l.stream.queued.take 1).map .byte)).length ≤
        l.credit cfg
      rw [idle, List.nil_append, dataOf_bytes, List.length_take_of_le queued]
      omega
  | finish opened flight moved =>
      cases moved
      refine ⟨hcongestion, ?_⟩
      change (dataOf (l.stream.outstanding ++ [.fin])).length ≤ l.credit cfg
      rw [dataOf_append, List.length_append]
      exact hflight
  | again => exact ⟨hcongestion, hflight⟩
  | @acknowledge count congestion _ opened sent growth moved =>
      cases moved
      -- What leaves the flight is added to the credit.
      have hsplit : (dataOf (l.stream.outstanding.take count)).length +
          (dataOf (l.stream.outstanding.drop count)).length = l.inFlight := by
        rw [← List.length_append, ← dataOf_append, List.take_append_drop]
        rfl
      have hcredit : ({ l with
          stream := { l.stream with
            acknowledged := l.stream.acknowledged ++ l.stream.outstanding.take count
            outstanding := l.stream.outstanding.drop count }
          congestion } : Ledger).credit cfg =
          l.credit cfg + (dataOf (l.stream.outstanding.take count)).length := by
        simp only [credit, dataOf_append, List.length_append, Nat.add_assoc]
      refine ⟨?_, ?_⟩
      · rw [hcredit]
        change congestion ≤ _
        omega
      · rw [hcredit]
        change (dataOf (l.stream.outstanding.drop count)).length ≤ _
        omega
  | reduce opened bound => exact ⟨bound.trans (Nat.max_le.mpr ⟨hearned, hflight⟩), hflight⟩
  | advertise => exact ⟨hcongestion, hflight⟩
  | lend => exact ⟨hcongestion, hflight⟩
  | close => exact ⟨hcongestion, hflight⟩

/-- An endpoint that may send more finds the queue below its high-water mark. -/
def Watched (cfg : Settings) (l : Ledger) : Prop :=
  l.paused = false → l.stream.queued.length < cfg.sendQueueHighWaterBytes

/-- A shorter queue, with the endpoint resumed if that was due. -/
theorem Watched.shrink (h : l.Watched cfg) {stream : State Item Byte}
    (hless : stream.queued.length ≤ l.stream.queued.length)
    (hresumed : l.resumed cfg stream = false) :
    stream.queued.length < cfg.sendQueueHighWaterBytes := by
  have hlow := cfg.lowWater_lt_highWater
  simp only [resumed, Bool.and_eq_false_iff, Bool.not_eq_false', decide_eq_true_eq] at hresumed
  rcases hresumed with hfree | hdrained
  · exact hless.trans_lt (h hfree)
  · omega

theorem queued_transmit_le {s t : State Item Byte} {count : Nat}
    (moved : SendStream.Step itemFormat s (.transmit count) t) :
    t.queued.length ≤ s.queued.length := by
  cases moved
  exact (List.length_drop.trans_le (Nat.sub_le _ _))

/-- The endpoint is paused as soon as the mark is reached, and resumed only
below it. -/
theorem Step.watched (step : Step cfg l deed l') (h : l.Watched cfg) : l'.Watched cfg := by
  cases step with
  | @enqueue _ stream opened nonempty moved =>
      intro hfree
      change (l.paused || decide (stream.queued.length ≥ cfg.sendQueueHighWaterBytes)) = false
        at hfree
      simp only [Bool.or_eq_false_iff, decide_eq_false_iff_not, Nat.not_le] at hfree
      exact hfree.2
  | transmit opened pos short queued room flight granted moved =>
      exact fun hresumed => h.shrink (queued_transmit_le moved) hresumed
  | probe opened idle queued moved =>
      exact fun hresumed => h.shrink (queued_transmit_le moved) hresumed
  | finish opened flight moved =>
      cases moved
      exact h
  | acknowledge opened sent growth moved =>
      cases moved
      exact h
  | _ => exact h

/-- What an endpoint does that heeds the pause, with chunks of at most `chunk`
bytes. -/
def Heeds (chunk : Nat) (l : Ledger) : Deed → Prop
  | .enqueue data => l.paused = false ∧ data.length ≤ chunk
  | _ => True

/-- The queue of a sender whose endpoint heeds the pause stays below the
high-water mark and one chunk. -/
theorem Step.queue_lt {chunk : Nat} (step : Step cfg l deed l') (hheeds : l.Heeds chunk deed)
    (hwatched : l.Watched cfg)
    (h : l.stream.queued.length < cfg.sendQueueHighWaterBytes + chunk) :
    l'.stream.queued.length < cfg.sendQueueHighWaterBytes + chunk := by
  cases step with
  | enqueue opened nonempty moved =>
      have hbelow := hwatched hheeds.1
      have hchunk := hheeds.2
      cases moved
      rw [List.length_append]
      omega
  | transmit opened pos short queued room flight granted moved =>
      exact (queued_transmit_le moved).trans_lt h
  | probe opened idle queued moved => exact (queued_transmit_le moved).trans_lt h
  | finish opened flight moved =>
      cases moved
      exact h
  | acknowledge opened sent growth moved =>
      cases moved
      exact h
  | _ => exact h

end Ledger

end RootlessRelay
