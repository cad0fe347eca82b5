import RootlessRelay.Library.Transition
import RootlessRelay.Tcp.Conn
import RootlessRelay.Tcp.Reassembly

/-!
# The out-of-order buffer over a whole run

Any number of calls of `bufferTCPOutOfOrder`, and of advances of `vmSeq` over
in-order payload, each followed by `drainTCPOutOfOrder`, on an initially empty
buffer. The buffered ranges stay disjoint and inside the capacity, so the
advertised window stays open; a call adds the bytes that are missing and nothing
else; a drain takes the ranges that can be reached from `vmSeq` without a gap.

The calls are those of the handlers, but nothing is assumed of the order in
which they come or of what is in the payloads. The callback of the drain is a
parameter, since the buffer does not depend on what becomes of the bytes.
-/

namespace RootlessRelay

open SequenceSpace Transition

/-- A call on the out-of-order buffer, or an advance of `vmSeq` followed by a
drain. -/
inductive BufferCall
  | buffer (sequence : Seq) (payload : Bytes)
  | advance (length : Nat)

namespace Reassembly

/-- In-order payload has arrived. -/
def advance (conn : Reassembly) (length : Nat) : Reassembly :=
  { conn with vmSeq := conn.vmSeq + BitVec.ofNat 32 length }

/-- The calls on a buffer and the sink it is drained to. An advance is at most
as long as a segment. -/
inductive CallStep {ω : Type} (write : ω → Bytes → ω) (capacity : Nat) :
    Reassembly × ω → BufferCall → Reassembly × ω → Prop
  | buffer (conn : Reassembly) (sink : ω) (sequence : Seq) (payload : Bytes) :
      CallStep write capacity (conn, sink) (.buffer sequence payload)
        (bufferTCPOutOfOrder conn sequence payload capacity, sink)
  | advance (conn : Reassembly) (sink : ω) {length : Nat} (short : length ≤ 65535) :
      CallStep write capacity (conn, sink) (.advance length)
        ((drainTCPOutOfOrder write (conn.advance length) sink).1,
          (drainTCPOutOfOrder write (conn.advance length) sink).2.1)

/-- A buffer that holds nothing yet. -/
structure Empty (conn : Reassembly) : Prop where
  ranges : conn.vmOutOfOrder = []
  bytes : conn.vmOutOfOrderBytes = 0

/-- `e` can be reached without a gap from `a` places after `origin`. -/
def Reachable (origin : Seq) (a : Nat) (ranges : List (Seq × Bytes)) (e : Seq × Bytes) : Prop :=
  ∀ k, a ≤ k → k < distance e.1 origin → ∃ b, Holds origin ranges k b

/-- What holds of the buffer between two calls: its ranges are non-empty,
disjoint and inside the capacity, they are counted right, and they leave room,
so that only a sink that does not take more closes the window. -/
structure BufferInvariant (conn : Reassembly) (capacity : Nat) : Prop where
  sound : conn.Sound capacity
  room : conn.vmOutOfOrderBytes ≤ capacity - 1
  window : ∀ (cfg : Settings) (c : Conn), min 0xffff cfg.tcpWindowSize = capacity →
    c.recv.toReassembly = conn → c.tcpReceiveWindow cfg = 0 → c.recv.receiveBackpressured = true

/-- What one call of `bufferTCPOutOfOrder` does to `conn`: inside the capacity
the bytes of the payload that are not held yet are added, elsewhere nothing
changes. -/
structure BuffersMissing (conn : Reassembly) (capacity : Nat) (sequence : Seq)
    (payload : Bytes) : Prop where
  vmSeq : (bufferTCPOutOfOrder conn sequence payload capacity).vmSeq = conn.vmSeq
  inside : 0 < distance sequence conn.vmSeq → distance sequence conn.vmSeq < capacity →
    ∀ k b, Holds conn.vmSeq (bufferTCPOutOfOrder conn sequence payload capacity).vmOutOfOrder k b ↔
      Holds conn.vmSeq conn.vmOutOfOrder k b ∨
        ((¬∃ b, Holds conn.vmSeq conn.vmOutOfOrder k b) ∧ distance sequence conn.vmSeq ≤ k ∧
          k < capacity ∧ payload[k - distance sequence conn.vmSeq]? = some b)
  outside : ¬(0 < distance sequence conn.vmSeq ∧ distance sequence conn.vmSeq < capacity) →
    bufferTCPOutOfOrder conn sequence payload capacity = conn

/-- What a drain does after `vmSeq` has advanced over `length` bytes: the ranges
that can be reached are gone and all others are left, behind the new `vmSeq`,
which stands in front of a byte that is not held; what is written are the held
bytes in between. -/
structure DrainsReachable (conn : Reassembly) (length : Nat) {ω : Type} (write : ω → Bytes → ω)
    (sink : ω) : Prop where
  removed : ∀ e, e ∈ (drainTCPOutOfOrder write (conn.advance length) sink).1.vmOutOfOrder ↔
    e ∈ conn.vmOutOfOrder ∧ ¬Reachable conn.vmSeq length conn.vmOutOfOrder e
  behind : ∀ e ∈ (drainTCPOutOfOrder write (conn.advance length) sink).1.vmOutOfOrder,
    0 < (e.1 - (drainTCPOutOfOrder write (conn.advance length) sink).1.vmSeq).toInt
  written : ∃ drained : List Bytes,
    (drainTCPOutOfOrder write (conn.advance length) sink).2.1 = drained.foldl write sink ∧
    (drainTCPOutOfOrder write (conn.advance length) sink).1.vmSeq =
      position conn.vmSeq (length + drained.flatten.length) ∧
    (∀ i b, drained.flatten[i]? = some b → Holds conn.vmSeq conn.vmOutOfOrder (length + i) b) ∧
    ¬∃ b, Holds conn.vmSeq conn.vmOutOfOrder (length + drained.flatten.length) b

variable {conn : Reassembly} {capacity : Nat}

theorem Empty.sound (h : conn.Empty) (capacity : Nat) : conn.Sound capacity := by
  refine ⟨?_, ?_⟩
  · rw [h.ranges]
    exact ⟨by simp, by simp, .nil⟩
  · rw [h.ranges, h.bytes, totalBytes_nil]

/-- The place of `vmSeq` itself is never held. -/
theorem Sound.room (h : conn.Sound capacity) : conn.vmOutOfOrderBytes ≤ capacity - 1 := by
  have hsubset : (Finset.range capacity).filter (Covered conn.vmSeq conn.vmOutOfOrder) ⊆
      Finset.Ico 1 capacity := by
    intro k hk
    obtain ⟨hlt, e, he, hle, -⟩ := Finset.mem_filter.mp hk
    have := h.buffered.inside e he
    exact Finset.mem_Ico.mpr ⟨by omega, Finset.mem_range.mp hlt⟩
  have hcard := Finset.card_le_card hsubset
  rw [Nat.card_Ico] at hcard
  rw [h.bytes, h.buffered.totalBytes_eq]
  exact hcard

theorem Sound.invariant (h : conn.Sound capacity) (hpos : 1 ≤ capacity) :
    conn.BufferInvariant capacity := by
  refine ⟨h, h.room, fun cfg c hcap hconn hzero => ?_⟩
  have hroom := h.room
  rw [← hconn] at hroom
  unfold Conn.tcpReceiveWindow at hzero
  split at hzero
  · assumption
  · omega

theorem Sound.buffersMissing (h : conn.Sound capacity) (hcap : capacity ≤ 65535)
    (sequence : Seq) (payload : Bytes) : conn.BuffersMissing capacity sequence payload := by
  obtain ⟨-, hseq, hholds⟩ := h.bufferTCPOutOfOrder hcap sequence payload
  refine ⟨hseq, fun hpos hlt k b => (hholds k b).trans (or_congr_right ?_), fun hout => ?_⟩
  · constructor
    · rintro ⟨-, hk, hk', hfree, hb⟩
      exact ⟨hfree, hk, hk', hb⟩
    · rintro ⟨hfree, hk, hk', hb⟩
      exact ⟨hpos, hk, hk', hfree, hb⟩
  · have hguard : distance sequence conn.vmSeq = 0 ∨ distance sequence conn.vmSeq ≥ capacity := by
      omega
    unfold RootlessRelay.bufferTCPOutOfOrder
    exact if_pos hguard

section Drain

variable {ω : Type} (write : ω → Bytes → ω) (sink : ω) {length : Nat}

theorem Sound.drained (h : conn.Sound capacity) (hcap : capacity ≤ 65535)
    (hlength : length ≤ 65535) : ∃ drained,
    Drained conn.vmSeq length conn.vmOutOfOrder
        (drainTCPOutOfOrder write (conn.advance length) sink).1 drained ∧
      (drainTCPOutOfOrder write (conn.advance length) sink).2 =
        (drained.foldl write sink, drained.length) := by
  have hseq : (conn.advance length).vmSeq = position conn.vmSeq length := rfl
  exact drainTCPOutOfOrder_spec write sink hseq (by omega) (by omega : capacity < 2 ^ 30)
    h.buffered h.bytes

/-- A drain hands over the ranges that are reachable from the new `vmSeq`, in
order, and keeps the others. -/
theorem Sound.drainsReachable (h : conn.Sound capacity) (hcap : capacity ≤ 65535)
    (hlength : length ≤ 65535) : conn.DrainsReachable length write sink := by
  obtain ⟨drained, hd, hsink⟩ := h.drained write sink hcap hlength
  obtain ⟨front, hfront, hpassed⟩ := hd.passed
  -- no range holds the byte in front of which the drain stops
  have hstop : ¬∃ b, Holds conn.vmSeq conn.vmOutOfOrder (length + drained.flatten.length) b := by
    rw [exists_holds_iff]
    rintro ⟨e, he, hle, hlt⟩
    obtain hgone | hleft := List.mem_append.mp (hfront.mem_iff.mp he)
    · have := hpassed e hgone
      omega
    · have := hd.beyond e hleft
      omega
  refine ⟨fun e => ?_, fun e he => ?_, drained, congrArg Prod.fst hsink, hd.vmSeq, hd.content, hstop⟩
  · constructor
    · intro hleft
      have hbeyond := hd.beyond e hleft
      exact ⟨hfront.mem_iff.mpr (List.mem_append_right _ hleft),
        fun hreach => hstop (hreach _ (Nat.le_add_right _ _) hbeyond)⟩
    · rintro ⟨he, hunreachable⟩
      obtain hgone | hleft := List.mem_append.mp (hfront.mem_iff.mp he)
      · refine absurd (fun k hk hlt => ?_) hunreachable
        have hend := hpassed e hgone
        have hi : k - length < drained.flatten.length := by omega
        have hcontent := hd.content (k - length) _ (List.getElem?_eq_getElem hi)
        rw [Nat.add_sub_cancel' hk] at hcontent
        exact ⟨_, hcontent⟩
      · exact hleft
  · have hinside := (hd.sound h.buffered).buffered.inside e he
    have hsmall : 2 * (e.1 - (drainTCPOutOfOrder write (conn.advance length) sink).1.vmSeq).toNat <
        2 ^ 32 := by
      have : distance e.1 (drainTCPOutOfOrder write (conn.advance length) sink).1.vmSeq <
        2 ^ 31 := by omega
      unfold distance at this
      omega
    rw [BitVec.toInt_eq_toNat_of_lt hsmall]
    exact Int.natCast_pos.mpr hinside.1

end Drain

/-- The buffer keeps its invariant over every run of calls, and every call does
what it should. -/
theorem reassembly_invariant {ω : Type} (write : ω → Bytes → ω) (capacity : Nat)
    (hpos : 1 ≤ capacity) (hcap : capacity ≤ 65535) (start conn : Reassembly) (sink sink' : ω)
    (hempty : start.Empty) (calls : List BufferCall)
    (run : Run (CallStep write capacity) (start, sink) calls (conn, sink')) :
    conn.BufferInvariant capacity ∧
      (∀ sequence payload, conn.BuffersMissing capacity sequence payload) ∧
      ∀ length ≤ 65535, conn.DrainsReachable length write sink' := by
  have hsound : conn.Sound capacity := by
    refine run.invariant (P := fun s => s.1.Sound capacity) ?_ (hempty.sound capacity)
    intro s call s' hs hstep
    cases hstep with
    | buffer conn sink sequence payload => exact (hs.bufferTCPOutOfOrder hcap sequence payload).1
    | advance conn sink short =>
        obtain ⟨drained, hd, -⟩ := hs.drained write sink hcap short
        exact hd.sound hs.buffered
  exact ⟨hsound.invariant hpos, hsound.buffersMissing hcap,
    fun length hlength => hsound.drainsReachable write sink' hcap hlength⟩

/-- Two bytes five places behind `vmSeq`, with room for ten. -/
theorem reassembly_invariant_two :
    BufferInvariant (bufferTCPOutOfOrder {} 5 [1, 2] 10) 10 ∧
      BuffersMissing (bufferTCPOutOfOrder {} 5 [1, 2] 10) 10 4 [7, 8, 9, 10] ∧
      DrainsReachable (bufferTCPOutOfOrder {} 5 [1, 2] 10) 5
        (fun written chunk => written ++ [chunk]) ([] : List Bytes) := by
  obtain ⟨hinvariant, hbuffers, hdrains⟩ :=
    reassembly_invariant (fun written chunk => written ++ [chunk]) 10 (by decide) (by decide) {}
      (bufferTCPOutOfOrder {} 5 [1, 2] 10) ([] : List Bytes) [] ⟨rfl, rfl⟩ [.buffer 5 [1, 2]]
      (Run.single (.buffer {} [] 5 [1, 2]))
  exact ⟨hinvariant, hbuffers 4 [7, 8, 9, 10], hdrains 5 (by decide)⟩

end Reassembly

end RootlessRelay
