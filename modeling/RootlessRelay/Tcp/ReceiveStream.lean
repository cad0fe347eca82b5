import RootlessRelay.Tcp.Reassembly
import RootlessRelay.Tcp.Receive

/-!
# Payload on the receiving side

`receivePayload` in terms of places in the incoming stream: a payload is old, it
meets `vmSeq`, or it lies ahead. `Accepted` is the second case, with everything
the payload connects to.

The base of the stream and the place of a segment in it are parameters, and a
bound of one turn between them is all that is known of the numbers. What holds
of any buffer whatever (`TakenOver`) is kept apart from what needs a sound one,
since some results are about states in which nothing is known of the buffer.
-/

namespace RootlessRelay

open SequenceSpace Reassembly

namespace Conn

variable {cfg : Settings} {turn : Turn} {recv recv' : ReceiveSide} {payload : Bytes}
  {drained : List Bytes}

/-- What writing a list of buffers one after another leaves of the receiving
side. -/
structure Written (turn : Turn) (recv recv' : ReceiveSide) (chunks : List Bytes) : Prop where
  written : recv'.sink.written =
    if recv.sink.writable = true then recv.sink.written ++ chunks else recv.sink.written
  writable : recv'.sink.writable = recv.sink.writable
  accepted : recv'.accepted = recv.accepted
  peerFin : recv'.peerFin = recv.peerFin
  reassembly : recv'.toReassembly = recv.toReassembly
  backpressured : (∀ k, turn.sinkAccepts k = true) →
    recv'.receiveBackpressured = recv.receiveBackpressured

theorem Written.nil (turn : Turn) (recv : ReceiveSide) : Written turn recv recv [] :=
  ⟨by simp, rfl, rfl, rfl, rfl, fun _ => rfl⟩

theorem Written.trans {recv'' : ReceiveSide} {chunks chunks' : List Bytes}
    (h : Written turn recv recv' chunks) (h' : Written turn recv' recv'' chunks') :
    Written turn recv recv'' (chunks ++ chunks') := by
  refine ⟨?_, h'.writable.trans h.writable, h'.accepted.trans h.accepted,
    h'.peerFin.trans h.peerFin, h'.reassembly.trans h.reassembly,
    fun hturn => (h'.backpressured hturn).trans (h.backpressured hturn)⟩
  rw [h'.written, h.writable, h.written]
  split
  · exact List.append_assoc _ _ _
  · rfl

theorem writeReceived_written (turn : Turn) (recv : ReceiveSide) (payload : Bytes) :
    Written turn recv (writeReceived turn recv payload) [payload] := by
  unfold writeReceived
  split
  · rename_i hshut
    have hshut' : recv.sink.writable = false := by simpa using hshut
    exact ⟨by simp [hshut'], rfl, rfl, rfl, rfl, fun _ => rfl⟩
  · rename_i hopen
    have hopen' : recv.sink.writable = true := by simpa using hopen
    exact ⟨by simp [hopen'], rfl, rfl, rfl, rfl, fun hturn => by simp [hturn]⟩

theorem foldl_writeReceived (turn : Turn) (recv : ReceiveSide) (chunks : List Bytes) :
    Written turn recv (chunks.foldl (writeReceived turn) recv) chunks := by
  induction chunks generalizing recv with
  | nil => exact .nil turn recv
  | cons chunk rest ih => exact (writeReceived_written turn recv chunk).trans (ih _)

/-- The callback of the handlers' `drainTCPOutOfOrder`, folded over the buffers. -/
theorem foldl_drainCallback (turn : Turn) (recv : ReceiveSide) (accepted : Bytes)
    (chunks : List Bytes) :
    chunks.foldl (fun (state : ReceiveSide × Bytes) buffered =>
        (writeReceived turn state.1 buffered, state.2 ++ buffered)) (recv, accepted) =
      (chunks.foldl (writeReceived turn) recv, accepted ++ chunks.flatten) := by
  induction chunks generalizing recv accepted with
  | nil => simp
  | cons chunk rest ih =>
      rw [List.foldl_cons, List.foldl_cons, ih, List.flatten_cons, List.append_assoc]

/-- What accepting payload writes, and what it counts as taken. -/
structure TakenOver (turn : Turn) (recv recv' : ReceiveSide) (payload : Bytes)
    (drained : List Bytes) : Prop where
  vmSeq : recv'.vmSeq = position recv.vmSeq (payload.length + drained.flatten.length)
  accepted : recv'.accepted = recv.accepted ++ payload ++ drained.flatten
  written : recv'.sink.written =
    if recv.sink.writable = true then recv.sink.written ++ payload :: drained
    else recv.sink.written
  writable : recv'.sink.writable = recv.sink.writable
  peerFin : recv'.peerFin = recv.peerFin
  backpressured : (∀ k, turn.sinkAccepts k = true) →
    recv'.receiveBackpressured = recv.receiveBackpressured

/-- On any state of the buffer, sound or not. -/
theorem acceptPayload_takenOver (turn : Turn) (recv : ReceiveSide) (payload : Bytes) :
    ∃ drained, TakenOver turn recv (acceptPayload turn recv payload).1 payload drained := by
  have hw := writeReceived_written turn
    (advanceOver recv (recv.vmSeq + BitVec.ofNat 32 payload.length) payload) payload
  unfold acceptPayload drainReceived
  generalize writeReceived turn
    (advanceOver recv (recv.vmSeq + BitVec.ofNat 32 payload.length) payload) payload = recv₁ at hw ⊢
  obtain ⟨drained, he, hseq⟩ := drainTCPOutOfOrder_sink
    (fun (state : ReceiveSide × Bytes) buffered =>
      (writeReceived turn state.1 buffered, state.2 ++ buffered)) recv₁.toReassembly (recv₁, [])
  rw [foldl_drainCallback, List.nil_append] at he
  have hall := hw.trans (foldl_writeReceived turn recv₁ drained)
  have hmoved : recv₁.vmSeq = position recv.vmSeq payload.length := by
    rw [hw.reassembly]
    rfl
  rw [hmoved, position_add] at hseq
  refine ⟨drained, ?_⟩
  dsimp only
  generalize drainTCPOutOfOrder (fun (state : ReceiveSide × Bytes) buffered =>
    (writeReceived turn state.1 buffered, state.2 ++ buffered)) recv₁.toReassembly (recv₁, []) =
      result at he hseq
  obtain ⟨reassembly, ⟨recv₂, accepted⟩, delivered⟩ := result
  simp only [Prod.mk.injEq] at he
  obtain ⟨rfl, rfl⟩ := he
  exact ⟨hseq, congrArg (· ++ drained.flatten) hall.accepted, hall.written, hall.writable, hall.peerFin,
    hall.backpressured⟩

/-- Payload taken at `vmSeq`, and the buffered bytes it connects to. -/
structure Accepted (cfg : Settings) (turn : Turn) (recv recv' : ReceiveSide) (payload : Bytes)
    (drained : List Bytes) : Prop extends TakenOver turn recv recv' payload drained where
  content : ∀ i b, drained.flatten[i]? = some b →
    Holds recv.vmSeq recv.vmOutOfOrder (payload.length + i) b
  holds : ∀ k b, Holds recv'.vmSeq recv'.vmOutOfOrder k b ↔
    Holds recv.vmSeq recv.vmOutOfOrder (payload.length + drained.flatten.length + k) b
  sound : recv'.toReassembly.Sound cfg.receiveCapacity
  nonempty : [] ∉ drained

theorem receiveCapacity_le (cfg : Settings) : cfg.receiveCapacity ≤ 65535 :=
  Nat.min_le_left _ _

/-- In-order payload on a sound buffer, with the ranges that the drain hands
over. -/
theorem acceptPayload_spec (turn : Turn) (h : recv.toReassembly.Sound cfg.receiveCapacity)
    (hlen : payload.length < 65536) :
    ∃ drained, Accepted cfg turn recv (acceptPayload turn recv payload).1 payload drained ∧
      (acceptPayload turn recv payload).2 = drained.length := by
  have hcap := receiveCapacity_le cfg
  obtain ⟨recv₁, hrecv₁⟩ : ∃ recv₁, recv₁ = writeReceived turn
    (advanceOver recv (recv.vmSeq + BitVec.ofNat 32 payload.length) payload) payload := ⟨_, rfl⟩
  have hw := writeReceived_written turn
    (advanceOver recv (recv.vmSeq + BitVec.ofNat 32 payload.length) payload) payload
  rw [← hrecv₁] at hw
  have hmoved : recv₁.toReassembly = { recv.toReassembly with
      vmSeq := position recv.vmSeq payload.length } := hw.reassembly
  have hseq : recv₁.vmSeq = position recv.vmSeq payload.length := by rw [hmoved]
  have hranges : recv₁.vmOutOfOrder = recv.vmOutOfOrder := by rw [hmoved]
  obtain ⟨drained, hd, he⟩ := drainTCPOutOfOrder_spec
    (fun (state : ReceiveSide × Bytes) buffered =>
      (writeReceived turn state.1 buffered, state.2 ++ buffered)) (recv₁, [])
    hseq (by omega) (Nat.lt_of_le_of_lt hcap (by omega)) (by rw [hranges]; exact h.buffered)
    (by rw [hmoved]; exact h.bytes)
  rw [hranges] at hd
  rw [foldl_drainCallback, List.nil_append] at he
  have hall := foldl_writeReceived turn recv₁ drained
  refine ⟨drained, ?_⟩
  unfold acceptPayload drainReceived
  rw [← hrecv₁]
  dsimp only
  generalize drainTCPOutOfOrder (fun (state : ReceiveSide × Bytes) buffered =>
    (writeReceived turn state.1 buffered, state.2 ++ buffered)) recv₁.toReassembly (recv₁, []) =
      result at hd he
  obtain ⟨reassembly, ⟨recv₂, accepted⟩, delivered⟩ := result
  simp only [Prod.mk.injEq] at he
  obtain ⟨⟨rfl, rfl⟩, rfl⟩ := he
  refine ⟨⟨⟨hd.vmSeq, ?_, ?_, hall.writable.trans hw.writable, hall.peerFin.trans hw.peerFin,
    (hw.trans hall).backpressured⟩, hd.content, hd.holds_iff, hd.sound h.buffered, hd.nonempty⟩, rfl⟩
  · exact congrArg (· ++ drained.flatten) (hall.accepted.trans hw.accepted)
  · exact (hw.trans hall).written

/-- The payload of a segment `p` bytes after `base`, with `vmSeq` `n` bytes
after it. One of three things happens. -/
theorem receivePayload_cases (turn : Turn) {base seqNum : Seq} {n p : Nat}
    (h : recv.toReassembly.Sound cfg.receiveCapacity) (hseq : recv.vmSeq = position base n)
    (hnum : seqNum = position base p) (hpn : p - n < 2 ^ 31) (hnp : n - p < 2 ^ 31)
    (hlen : payload.length < 65536) :
    ((payload = [] ∨ p + payload.length ≤ n) ∧
        receivePayload cfg turn recv seqNum payload = (recv, !payload.isEmpty)) ∨
      (p ≤ n ∧ n < p + payload.length ∧ (receivePayload cfg turn recv seqNum payload).2 = false ∧
        ∃ drained, Accepted cfg turn recv (receivePayload cfg turn recv seqNum payload).1
          (payload.drop (n - p)) drained) ∨
      (n < p ∧ payload ≠ [] ∧ receivePayload cfg turn recv seqNum payload =
        (bufferReceived cfg recv seqNum payload, true)) := by
  have hless : seqLessThan seqNum recv.vmSeq = true ↔ p < n := by
    rw [seqLessThan_eq_precedes, hnum, hseq]
    exact precedes_position (by omega) base hpn hnp
  have hequal : seqNum = recv.vmSeq ↔ p = n := by
    rw [hnum, hseq]
    exact position_inj (by omega) (by omega)
  unfold receivePayload
  by_cases hempty : payload.length = 0
  · rw [if_pos hempty]
    have hnil := List.eq_nil_of_length_eq_zero hempty
    exact .inl ⟨.inl hnil, by simp [hnil]⟩
  rw [if_neg hempty]
  have hne : payload ≠ [] := fun hnil => hempty (by rw [hnil, List.length_nil])
  by_cases hold : p < n
  · rw [if_pos (hless.mpr hold)]
    have hhave : seqDiff recv.vmSeq seqNum = n - p := by
      have hdist : (recv.vmSeq - seqNum).toNat = n - p := by
        rw [hnum, hseq]
        exact distance_position_of_le base (Nat.le_of_lt hold) (by omega)
      rw [seqDiff, hdist, if_neg (by omega)]
    dsimp only
    rw [hhave]
    by_cases hall : n - p ≥ payload.length
    · rw [if_pos hall]
      exact .inl ⟨.inr (by omega), by simp [hne]⟩
    · rw [if_neg hall]
      have htail : (payload.drop (n - p)).length < 65536 := by
        rw [List.length_drop]
        omega
      obtain ⟨drained, haccepted, -⟩ := acceptPayload_spec turn h htail
      exact .inr (.inl ⟨Nat.le_of_lt hold, by omega, rfl, drained, haccepted⟩)
  · rw [if_neg (mt hless.mp hold)]
    by_cases heq : p = n
    · rw [if_pos (hequal.mpr heq)]
      obtain ⟨drained, haccepted, -⟩ := acceptPayload_spec turn h hlen
      subst heq
      refine .inr (.inl ⟨Nat.le_refl p, by omega, rfl, drained, ?_⟩)
      rw [Nat.sub_self, List.drop_zero]
      exact haccepted
    · rw [if_neg (mt hequal.mp heq)]
      exact .inr (.inr ⟨by omega, hne, rfl⟩)

/-- Buffering payload that lies ahead, where the sink takes more. -/
theorem bufferReceived_spec {base seqNum : Seq} {n p : Nat}
    (h : recv.toReassembly.Sound cfg.receiveCapacity) (hseq : recv.vmSeq = position base n)
    (hnum : seqNum = position base p) (hnp : n < p) (hpn : p - n < 2 ^ 31) (payload : Bytes) :
    ∃ reassembly, bufferReceived cfg recv seqNum payload =
        { recv with toReassembly := reassembly } ∧
      reassembly.Sound cfg.receiveCapacity ∧ reassembly.vmSeq = recv.vmSeq ∧
      ∀ k b, Holds recv.vmSeq reassembly.vmOutOfOrder k b ↔
        Holds recv.vmSeq recv.vmOutOfOrder k b ∨
          (recv.receiveBackpressured = false ∧ p ≤ n + k ∧ k < cfg.receiveCapacity ∧
            (¬∃ b, Holds recv.vmSeq recv.vmOutOfOrder k b) ∧ payload[n + k - p]? = some b) := by
  unfold bufferReceived
  split
  · rename_i hback
    refine ⟨recv.toReassembly, rfl, h, rfl, fun k b => ⟨.inl, ?_⟩⟩
    rintro (hb | ⟨hfree, -⟩)
    · exact hb
    · rw [hback] at hfree
      cases hfree
  · rename_i hfree
    have hstart : distance seqNum recv.vmSeq = p - n := by
      rw [hnum, hseq]
      exact distance_position_of_le base (Nat.le_of_lt hnp) (by omega)
    obtain ⟨hsound, hsame, hholds⟩ :=
      h.bufferTCPOutOfOrder (receiveCapacity_le cfg) seqNum payload
    rw [hstart] at hholds
    refine ⟨_, rfl, hsound, hsame, fun k b => (hholds k b).trans (or_congr_right ?_)⟩
    constructor
    · rintro ⟨-, hk, hk', hnone, hb⟩
      exact ⟨by simpa using hfree, by omega, hk', hnone,
        by rw [show n + k - p = k - (p - n) by omega]; exact hb⟩
    · rintro ⟨-, hk, hk', hnone, hb⟩
      exact ⟨by omega, by omega, hk', hnone,
        by rw [show k - (p - n) = n + k - p by omega]; exact hb⟩

/-- The payload of the segment reaches beyond `vmSeq` and leaves no gap. -/
def BringsNew (recv : ReceiveSide) (seg : VMSegment) : Prop :=
  seg.payload ≠ [] ∧
    if seqLessThan seg.seqNum recv.vmSeq = true then
      seqDiff recv.vmSeq seg.seqNum < seg.payload.length
    else seg.seqNum = recv.vmSeq

instance (recv : ReceiveSide) (seg : VMSegment) : Decidable (BringsNew recv seg) :=
  inferInstanceAs (Decidable (_ ∧ _))

/-- A segment brings something new exactly if `vmSeq` stands within its payload
or at its beginning. -/
theorem bringsNew_iff {seg : VMSegment} {base : Seq} {n p : Nat}
    (hseq : recv.vmSeq = position base n) (hnum : seg.seqNum = position base p)
    (hpn : p - n < 2 ^ 31) (hnp : n - p < 2 ^ 31) :
    BringsNew recv seg ↔ p ≤ n ∧ n < p + seg.payload.length := by
  have hless : seqLessThan seg.seqNum recv.vmSeq = true ↔ p < n := by
    rw [seqLessThan_eq_precedes, hnum, hseq]
    exact precedes_position (by omega) base hpn hnp
  have hequal : seg.seqNum = recv.vmSeq ↔ p = n := by
    rw [hnum, hseq]
    exact position_inj (by omega) (by omega)
  rw [BringsNew, ← List.length_pos_iff]
  by_cases hold : p < n
  · have hdist : (recv.vmSeq - seg.seqNum).toNat = n - p := by
      rw [hnum, hseq]
      exact distance_position_of_le base (Nat.le_of_lt hold) (by omega)
    rw [if_pos (hless.mpr hold), seqDiff, hdist, if_neg (by omega)]
    omega
  · rw [if_neg (mt hless.mp hold), hequal]
    omega

/-- Everything `vmSeq` has been advanced over is in the sink. -/
def AllWritten (recv : Delivered) : Prop := recv.written.flatten = recv.accepted

theorem TakenOver.allWritten (h : TakenOver turn recv recv' payload drained)
    (hopen : recv.sink.writable = true) (hw : AllWritten recv.core.delivered) :
    AllWritten recv'.core.delivered := by
  change recv'.sink.written.flatten = recv'.accepted
  rw [h.written, if_pos hopen, h.accepted, List.flatten_append, List.flatten_cons,
    List.append_assoc]
  exact congrArg (· ++ _) hw

/-- Payload that brings nothing new is not taken; any other is written to an
open sink. -/
theorem receivePayload_allWritten (cfg : Settings) (turn : Turn) {seg : VMSegment}
    (hopen : BringsNew recv seg → recv.sink.writable = true)
    (hw : AllWritten recv.core.delivered) :
    AllWritten (receivePayload cfg turn recv seg.seqNum seg.payload).1.core.delivered := by
  unfold receivePayload
  split
  · exact hw
  rename_i hempty
  have hne : seg.payload ≠ [] := fun hnil => hempty (by rw [hnil, List.length_nil])
  split
  · rename_i hless
    dsimp only
    split
    · exact hw
    · rename_i hmore
      obtain ⟨drained, htaken⟩ := acceptPayload_takenOver turn recv
        (seg.payload.drop (seqDiff recv.vmSeq seg.seqNum))
      refine htaken.allWritten (hopen ⟨hne, ?_⟩) hw
      rw [if_pos hless]
      omega
  · rename_i hless
    split
    · rename_i heq
      obtain ⟨drained, htaken⟩ := acceptPayload_takenOver turn recv seg.payload
      refine htaken.allWritten (hopen ⟨hne, ?_⟩) hw
      rw [if_neg hless]
      exact heq
    · unfold bufferReceived
      split
      · exact hw
      · exact hw

end Conn

end RootlessRelay
