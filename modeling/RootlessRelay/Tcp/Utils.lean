import Mathlib.Data.List.Sort
import RootlessRelay.Basic
import RootlessRelay.Library.InsertionMap

/-!
# Queues and reassembly

The functions of `tcp_utils.js` that move payload: `takeQueuedBytes` cuts bytes
off a queue of buffers, `bufferTCPOutOfOrder` keeps payload that arrived early,
and `drainTCPOutOfOrder` hands over what has become contiguous.

`takeQueuedBytes` promises to leave the queue alone when it throws. Its checks
and the allocation come first and keep the promise; the loop takes buffers off
the queue as it goes, and finds out only at the end that there were too few.
When that happens is stated here, with the largest buffer that can be allocated
as a parameter. What the other two functions do over runs of calls is proved in
`Reassembly`.
-/

namespace RootlessRelay

/-- What `takeQueuedBytes` throws, by the check that fails. -/
inductive TakeError
  | lengthNotPositive
  | emptyQueue
  | notABuffer
  | allocation
  | underrun
  deriving DecidableEq, Repr

/-- The copying loop: `needed` bytes are still missing from `chunk`. An error
carries the queue as the loop has left it. -/
def takeLoop (needed : Nat) (chunk : Bytes) :
    List Bytes → Except (TakeError × List Bytes) (Bytes × List Bytes)
  | [] => .error (.notABuffer, [])
  | current :: rest =>
    let bytes := min current.length needed
    let queue := if bytes = current.length then rest else current.drop bytes :: rest
    let chunk := chunk ++ current.take bytes
    if queue = [] ∧ bytes < needed then .error (.underrun, queue)
    else if bytes < needed then takeLoop (needed - bytes) chunk rest
    else .ok (chunk, queue)

/-- `Number.MAX_SAFE_INTEGER`, the largest length the first check accepts. -/
def maxSafeInteger : Nat := 2 ^ 53 - 1

/-- `limit` is the length of the longest buffer that the host can allocate: the
`Buffer.allocUnsafe` of a longer one throws, before anything is taken off the
queue. -/
def takeQueuedBytes (limit : Nat) (queue : List Bytes) (length : Nat) :
    Except (TakeError × List Bytes) (Bytes × List Bytes) :=
  if length > maxSafeInteger ∨ length = 0 then .error (.lengthNotPositive, queue)
  else
    match queue with
    | [] => .error (.emptyQueue, [])
    | first :: rest =>
      if first.length ≥ length then
        .ok (first.take length, if first.length = length then rest else first.drop length :: rest)
      else if length > limit then .error (.allocation, queue)
      else takeLoop length [] queue

/-- Without empty buffers, a queue that holds no byte holds no buffer. -/
theorem eq_nil_of_flatten_eq_nil {queue : List Bytes} (hne : [] ∉ queue)
    (h : queue.flatten = []) : queue = [] := by
  refine List.eq_nil_iff_forall_not_mem.mpr fun chunk hmem => hne ?_
  have hempty : chunk = [] := List.flatten_eq_nil_iff.mp h chunk hmem
  rwa [hempty] at hmem

/-- With enough bytes queued in non-empty buffers, the loop takes exactly the
missing ones and leaves non-empty buffers. -/
theorem takeLoop_spec {needed : Nat} (chunk : Bytes) {queue : List Bytes} (hpos : 0 < needed)
    (hle : needed ≤ queue.flatten.length) (hne : [] ∉ queue) :
    ∃ left, takeLoop needed chunk queue = .ok (chunk ++ queue.flatten.take needed, left) ∧
      left.flatten = queue.flatten.drop needed ∧ [] ∉ left := by
  induction queue generalizing needed chunk with
  | nil =>
      simp only [List.flatten_nil, List.length_nil] at hle
      omega
  | cons current rest ih =>
      simp only [List.mem_cons, not_or] at hne
      simp only [List.flatten_cons, List.length_append] at hle
      by_cases hfew : current.length < needed
      · have hmin : min current.length needed = current.length := by omega
        have hrest : rest ≠ [] := by
          rintro rfl
          simp only [List.flatten_nil, List.length_nil] at hle
          omega
        obtain ⟨left, htake, hflat, hleft⟩ := ih (chunk ++ current)
          (Nat.sub_pos_of_lt hfew) (by omega) hne.2
        refine ⟨left, ?_, ?_, hleft⟩
        · simp only [takeLoop, hmin, if_true, List.take_length, hrest, false_and, if_false]
          rw [if_pos hfew, htake, List.flatten_cons, List.take_append, List.append_assoc,
            List.take_of_length_le (Nat.le_of_lt hfew)]
        · rw [hflat, List.flatten_cons, List.drop_append,
            List.drop_of_length_le (Nat.le_of_lt hfew), List.nil_append]
      · have hmin : min current.length needed = needed := by omega
        refine ⟨if needed = current.length then rest else current.drop needed :: rest, ?_, ?_, ?_⟩
        · simp only [takeLoop, hmin, Nat.lt_irrefl, and_false, if_false]
          rw [List.flatten_cons, List.take_append_of_le_length (by omega)]
        · rw [List.flatten_cons, List.drop_append_of_le_length (by omega)]
          split
          · rename_i heq
            rw [heq, List.drop_length, List.nil_append]
          · rfl
        · split
          · exact hne.2
          · rename_i hlt
            simp only [List.mem_cons, not_or]
            refine ⟨fun hnil => ?_, hne.2⟩
            have := congrArg List.length hnil
            simp only [List.length_nil, List.length_drop] at this
            omega

/-- The loop never copies more than was asked for. -/
theorem takeLoop_length {needed : Nat} {chunk chunk' : Bytes} {queue queue' : List Bytes}
    (h : takeLoop needed chunk queue = .ok (chunk', queue')) :
    chunk'.length ≤ chunk.length + needed := by
  induction queue generalizing needed chunk with
  | nil => cases h
  | cons current rest ih =>
      unfold takeLoop at h
      dsimp only at h
      generalize (if min current.length needed = current.length then rest
        else current.drop (min current.length needed) :: rest) = left at h
      split at h
      · cases h
      split at h
      · have hrest := ih h
        simp only [List.length_append, List.length_take] at hrest
        omega
      · cases h
        simp only [List.length_append, List.length_take]
        omega

/-- It hands over no more than it was asked for, whatever the queue holds. -/
theorem takeQueuedBytes_length {limit length : Nat} {chunk : Bytes} {queue queue' : List Bytes}
    (h : takeQueuedBytes limit queue length = .ok (chunk, queue')) : chunk.length ≤ length := by
  unfold takeQueuedBytes at h
  split at h
  · cases h
  split at h
  · cases h
  split at h
  · cases h
    exact List.length_take_le _ _
  split at h
  · cases h
  · exact Nat.le_trans (takeLoop_length h) (Nat.le_of_eq (Nat.zero_add _))

/-- `takeQueuedBytes` cuts the first `length` bytes off the queue, if there are
so many and they can be allocated. -/
theorem takeQueuedBytes_spec {limit : Nat} {queue : List Bytes} {length : Nat} (hpos : 0 < length)
    (hsafe : length ≤ maxSafeInteger) (hlimit : length ≤ limit)
    (hle : length ≤ queue.flatten.length) (hne : [] ∉ queue) :
    ∃ left, takeQueuedBytes limit queue length = .ok (queue.flatten.take length, left) ∧
      left.flatten = queue.flatten.drop length ∧ [] ∉ left := by
  unfold takeQueuedBytes
  rw [if_neg (by omega)]
  cases queue with
  | nil =>
      simp only [List.flatten_nil, List.length_nil] at hle
      omega
  | cons first rest =>
      by_cases hfirst : first.length ≥ length
      · simp only [hfirst, if_true]
        simp only [List.mem_cons, not_or] at hne
        refine ⟨_, by rw [List.flatten_cons, List.take_append_of_le_length hfirst], ?_, ?_⟩
        · rw [List.flatten_cons, List.drop_append_of_le_length hfirst]
          split
          · rename_i heq
            rw [← heq, List.drop_length, List.nil_append]
          · rfl
        · split
          · exact hne.2
          · simp only [List.mem_cons, not_or]
            refine ⟨fun hnil => ?_, hne.2⟩
            have := congrArg List.length hnil
            simp only [List.length_nil, List.length_drop] at this
            omega
      · simp only [hfirst, if_false]
        rw [if_neg (Nat.not_lt_of_le hlimit)]
        exact takeLoop_spec [] hpos hle hne

/-- Short of bytes, the loop empties the queue before it notices. Empty buffers
on the way make no difference. -/
theorem takeLoop_short {needed : Nat} (chunk : Bytes) {queue : List Bytes}
    (hshort : queue.flatten.length < needed) :
    ∃ error, takeLoop needed chunk queue = .error (error, []) := by
  induction queue generalizing needed chunk with
  | nil => exact ⟨.notABuffer, rfl⟩
  | cons current rest ih =>
      rw [List.flatten_cons, List.length_append] at hshort
      have hmin : min current.length needed = current.length := by omega
      have hfew : current.length < needed := by omega
      unfold takeLoop
      simp only [hmin, if_true]
      by_cases hrest : rest = []
      · rw [if_pos ⟨hrest, hfew⟩, hrest]
        exact ⟨.underrun, rfl⟩
      · rw [if_neg (fun hlast => hrest hlast.1), if_pos hfew]
        exact ih _ (by omega)

/-- The call throws and the queue still holds the bytes it held, though perhaps
in other buffers. -/
def FailsUnchanged (limit : Nat) (queue : List Bytes) (length : Nat) : Prop :=
  ∃ error left, takeQueuedBytes limit queue length = .error (error, left) ∧
    left.flatten = queue.flatten

/-- The length is refused at the start, or the buffer for it cannot be
allocated: in both cases the call throws before its loop. -/
def RefusesLength (limit length : Nat) : Prop := length > maxSafeInteger ∨ length > limit

instance (limit length : Nat) : Decidable (RefusesLength limit length) :=
  inferInstanceAs (Decidable (_ ∨ _))

/-- A request for more than there is throws. What the queue holds then is all of
it or nothing, and it is nothing whenever the loop is reached. -/
theorem takeQueuedBytes_short {limit : Nat} {queue : List Bytes} {length : Nat} (hpos : 0 < length)
    (hshort : queue.flatten.length < length) :
    ∃ error, takeQueuedBytes limit queue length =
      .error (error, if RefusesLength limit length then queue else []) := by
  unfold takeQueuedBytes
  by_cases hsafe : length > maxSafeInteger
  · rw [if_pos (.inl hsafe), if_pos (.inl hsafe)]
    exact ⟨.lengthNotPositive, rfl⟩
  · rw [if_neg (by omega)]
    cases queue with
    | nil => exact ⟨.emptyQueue, by rw [ite_self]⟩
    | cons first rest =>
        have hfirst : ¬first.length ≥ length := by
          rw [List.flatten_cons, List.length_append] at hshort
          omega
        dsimp only
        rw [if_neg hfirst]
        by_cases hlimit : length > limit
        · rw [if_pos hlimit, if_pos (.inr hlimit)]
          exact ⟨.allocation, rfl⟩
        · have hserved : ¬RefusesLength limit length := not_or.mpr ⟨hsafe, hlimit⟩
          rw [if_neg hlimit, if_neg hserved]
          exact takeLoop_short [] hshort

/-- The shortage shows only after everything has been shifted off the queue:
what was queued is lost, if anything was and the loop is reached. -/
theorem takeQueuedBytes_failsUnchanged_iff {limit : Nat} {queue : List Bytes} {length : Nat}
    (hpos : 0 < length) (hshort : queue.flatten.length < length) :
    FailsUnchanged limit queue length ↔ queue.flatten = [] ∨ RefusesLength limit length := by
  obtain ⟨error, hthrown⟩ := @takeQueuedBytes_short limit _ _ hpos hshort
  constructor
  · rintro ⟨error', left, htake, hsame⟩
    rw [hthrown] at htake
    by_cases hrefused : RefusesLength limit length
    · exact .inr hrefused
    · rw [if_neg hrefused] at htake
      cases htake
      exact .inl hsame.symm
  · intro hcond
    refine ⟨error, _, hthrown, ?_⟩
    split
    · rfl
    · rename_i hrefused
      exact (hcond.resolve_right hrefused).symm

/-- Two bytes asked of two empty buffers: nothing is queued, so nothing can be
lost. -/
theorem takeQueuedBytes_failsUnchanged_iff_two : FailsUnchanged 4294967296 [[], []] 2 :=
  (takeQueuedBytes_failsUnchanged_iff (by decide) (by decide)).mpr (.inl rfl)

/-- Two bytes asked of a queue that holds one: the byte is gone. -/
theorem queued_byte_lost : ¬FailsUnchanged 4294967296 [[97]] 2 := by
  rintro ⟨error, left, htake, hsame⟩
  have hthrown : takeQueuedBytes 4294967296 [[97]] 2 = .error (.underrun, []) := by decide
  rw [hthrown] at htake
  cases htake
  cases hsame

/-- The fields of a connection that reassembly works on. `vmOutOfOrder` maps the
sequence number of a buffered range to its bytes. -/
structure Reassembly where
  vmSeq : Seq := 0
  vmOutOfOrder : List (Seq × Bytes) := []
  vmOutOfOrderBytes : Nat := 0
  deriving DecidableEq, Repr

namespace Reassembly

/-- `(sequence - conn.vmSeq) >>> 0`, which is large for what lies behind. -/
def offset (conn : Reassembly) (sequence : Seq) : Nat := (sequence - conn.vmSeq).toNat

/-- The closure `add`: keep the payload between two offsets under its own
number. -/
def add (conn : Reassembly) (payload : Bytes) (start lo hi : Nat) : Reassembly :=
  if hi ≤ lo then conn
  else
    let chunk := (payload.take (hi - start)).drop (lo - start)
    { conn with
      vmOutOfOrder := InsertionMap.set conn.vmOutOfOrder (conn.vmSeq + BitVec.ofNat 32 lo) chunk
      vmOutOfOrderBytes := conn.vmOutOfOrderBytes + chunk.length }

/-- The loop over the ranges already buffered, in order of their offset; what is
below `cursor` is already held. -/
def fillGaps (payload : Bytes) (start stop cursor : Nat) (conn : Reassembly) :
    List (Seq × Bytes) → Reassembly
  | [] => conn.add payload start cursor stop
  | (seq, buffered) :: rest =>
    let offset := conn.offset seq
    if offset ≥ stop then conn.add payload start cursor stop
    else if offset + buffered.length ≤ cursor then fillGaps payload start stop cursor conn rest
    else
      let conn := conn.add payload start cursor (min offset stop)
      let cursor := max cursor (offset + buffered.length)
      if cursor ≥ stop then conn else fillGaps payload start stop cursor conn rest

end Reassembly

/-- `bufferTCPOutOfOrder`: keep of the payload what lies within the capacity and
is not held yet. -/
def bufferTCPOutOfOrder (conn : Reassembly) (sequence : Seq) (payload : Bytes)
    (capacity : Nat) : Reassembly :=
  let start := conn.offset sequence
  if start = 0 ∨ start ≥ capacity then conn
  else
    let stop := min (start + payload.length) capacity
    let ranges := conn.vmOutOfOrder.insertionSort fun a b => conn.offset a.1 ≤ conn.offset b.1
    conn.fillGaps payload start stop start ranges

/-- The loop of `drainTCPOutOfOrder` over the ranges in their order. `write`
acts on the sink's state `ω`. -/
def drainLoop {ω : Type} (write : ω → Bytes → ω) (conn : Reassembly) (sink : ω)
    (delivered : Nat) : List (Seq × Bytes) → Reassembly × ω × Nat
  | [] => (conn, sink, delivered)
  | (seq, buffered) :: rest =>
    if (seq - conn.vmSeq).toInt > 0 then (conn, sink, delivered)
    else
      let conn := { conn with
        vmOutOfOrder := InsertionMap.delete conn.vmOutOfOrder seq
        vmOutOfOrderBytes := conn.vmOutOfOrderBytes - buffered.length }
      let consumed := (conn.vmSeq - seq).toNat
      if consumed ≥ buffered.length then drainLoop write conn sink delivered rest
      else
        let tail := buffered.drop consumed
        drainLoop write { conn with vmSeq := conn.vmSeq + BitVec.ofNat 32 tail.length }
          (write sink tail) (delivered + 1) rest

/-- `drainTCPOutOfOrder`: hand over the ranges that reach up to `vmSeq`, one
behind another. -/
def drainTCPOutOfOrder {ω : Type} (write : ω → Bytes → ω) (conn : Reassembly) (sink : ω) :
    Reassembly × ω × Nat :=
  if conn.vmOutOfOrder = [] then (conn, sink, 0)
  else
    let expected := conn.vmSeq
    let ranges := conn.vmOutOfOrder.insertionSort fun a b =>
      (a.1 - expected).toInt ≤ (b.1 - expected).toInt
    drainLoop write conn sink 0 ranges

end RootlessRelay
