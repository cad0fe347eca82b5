import RootlessRelay.Tcp.ReceiveStream
import RootlessRelay.Tcp.Segments

/-!
# A stream in pieces

The VM sends one stream `S` in segments of any shape and order. `CutFrom` says
that a segment is a piece of it; `Assembled` says what the receiving side has
made of the pieces so far: a prefix has been taken, and whatever is buffered
early is what the stream has at that place.

A piece may begin anywhere within half the sequence space of `vmSeq`, may
overlap what has been taken or buffered, and may come any number of times. The
step lemma is `receiveData_assembled`, and it is the reason why neither loss nor
reordering nor repetition can put a byte in the wrong place: a number determines
a place in `S`, and a place determines its byte.
-/

namespace RootlessRelay

open SequenceSpace Reassembly

/-- How far `vmSeq` has moved over bytes and the FIN, counted from the base of
the stream. -/
def Delivered.taken (recv : Delivered) : Nat := recv.accepted.length + recv.peerFin.toNat

namespace Conn

variable {cfg : Settings} {turn : Turn} {recv : ReceiveSide} {base : Seq} {S : Bytes}
  {seg : VMSegment}

/-- The segment is a piece of `S`, the byte `base` being the first, and starts
less than half the sequence space away from the place `n`. -/
def CutFrom (base : Seq) (S : Bytes) (n : Nat) (seg : VMSegment) : Prop :=
  seg.payload = [] ∧ seg.fin = false ∨
    ∃ p, seg.seqNum = position base p ∧ p - n < 2 ^ 31 ∧ n - p < 2 ^ 31 ∧
      seg.payload <+: S.drop p ∧ (seg.fin = true → p + seg.payload.length = S.length)

/-- The prefix of `S` that has been taken, and what has arrived early. The FIN
is taken only behind the whole of `S`. -/
structure Assembled (cfg : Settings) (base : Seq) (S : Bytes) (recv : Delivered) : Prop where
  accepted : recv.accepted <+: S
  finished : recv.peerFin = true → recv.accepted = S
  vmSeq : recv.vmSeq = position base recv.taken
  sound : recv.toReassembly.Sound cfg.receiveCapacity
  early : ∀ k b, Holds recv.vmSeq recv.vmOutOfOrder k b → S[recv.taken + k]? = some b

theorem Assembled.taken_of_open {recv : Delivered} (h : recv.peerFin = false) :
    recv.taken = recv.accepted.length := by
  simp [Delivered.taken, h]

theorem Assembled.taken_of_fin {recv : Delivered} (h : Assembled cfg base S recv)
    (hfin : recv.peerFin = true) : recv.taken = S.length + 1 := by
  simp [Delivered.taken, hfin, h.finished hfin]

/-- The FIN is the last thing that is taken. -/
theorem Assembled.taken_le {recv : Delivered} (h : Assembled cfg base S recv) :
    recv.taken ≤ S.length + 1 := by
  have hle := h.accepted.length_le
  have hfin := recv.peerFin.toNat_le
  simp only [Delivered.taken]
  omega

theorem Assembled.accepted_eq {recv : Delivered} (h : Assembled cfg base S recv) :
    recv.accepted = S.take recv.accepted.length :=
  List.prefix_iff_eq_take.mp h.accepted

/-- A piece of the stream that is not empty ends within it. -/
theorem length_le_of_piece {payload : Bytes} {p : Nat} (h : payload <+: S.drop p)
    (hne : payload ≠ []) : p + payload.length ≤ S.length := by
  have hle := h.length_le
  have hpos := List.length_pos_iff.mpr hne
  rw [List.length_drop] at hle
  omega

theorem getElem?_of_piece {payload : Bytes} {p i : Nat} {b : Byte} (h : payload <+: S.drop p)
    (hb : payload[i]? = some b) : S[p + i]? = some b := by
  obtain ⟨hi, rfl⟩ := List.getElem?_eq_some_iff.mp hb
  rw [← List.getElem?_drop]
  exact List.prefix_iff_getElem?.mp h i hi

/-- Bytes of the stream that continue a prefix of it make a longer prefix. -/
theorem prefix_append_of_getElem? {front more : Bytes} (h : front <+: S)
    (hmore : ∀ i b, more[i]? = some b → S[front.length + i]? = some b) : front ++ more <+: S := by
  rw [List.prefix_iff_getElem?]
  intro i hi
  rw [List.length_append] at hi
  by_cases hfront : i < front.length
  · rw [List.getElem_append_left hfront]
    exact List.prefix_iff_getElem?.mp h i hfront
  · rw [List.getElem_append_right (by omega)]
    have := hmore (i - front.length) _ (List.getElem?_eq_getElem (by omega))
    rwa [show front.length + (i - front.length) = i by omega] at this

/-- Payload that meets `vmSeq`, and what it connects to, continue the prefix. -/
theorem Accepted.assembled {recv' : ReceiveSide} {payload : Bytes} {drained : List Bytes}
    (h : Assembled cfg base S recv.core.delivered) (hopen : recv.peerFin = false)
    (haccepted : Accepted cfg turn recv recv' payload drained)
    (hpiece : payload <+: S.drop recv.accepted.length) :
    Assembled cfg base S recv'.core.delivered ∧
      recv.core.delivered.taken ≤ recv'.core.delivered.taken := by
  have htaken : recv.core.delivered.taken = recv.accepted.length := Assembled.taken_of_open hopen
  have hopen' : recv'.peerFin = false := haccepted.peerFin.trans hopen
  have htaken' : recv'.core.delivered.taken =
      recv.accepted.length + (payload.length + drained.flatten.length) := by
    rw [Assembled.taken_of_open hopen']
    change recv'.accepted.length = _
    rw [haccepted.accepted, List.length_append, List.length_append, Nat.add_assoc]
  have hearly := h.early
  rw [htaken] at hearly
  refine ⟨⟨?_, fun hfin => ?_, ?_, haccepted.sound, fun k b hb => ?_⟩, by omega⟩
  · change recv'.accepted <+: S
    rw [haccepted.accepted, List.append_assoc]
    refine prefix_append_of_getElem? h.accepted fun i b hb => ?_
    by_cases hi : i < payload.length
    · rw [List.getElem?_append_left hi] at hb
      exact getElem?_of_piece hpiece hb
    · rw [List.getElem?_append_right (by omega)] at hb
      have := hearly _ _ (haccepted.content _ b hb)
      rwa [show payload.length + (i - payload.length) = i by omega] at this
  · exact absurd (hopen'.symm.trans hfin) Bool.false_ne_true
  · rw [htaken', ← position_add]
    exact haccepted.vmSeq.trans (congrArg (position · _) (h.vmSeq.trans (by rw [htaken])))
  · have := hearly _ _ ((haccepted.holds k b).mp hb)
    rwa [htaken', Nat.add_assoc]

/-- What the payload part leaves of an assembled stream, for a piece of it. -/
theorem receivePayload_assembled (turn : Turn) (h : Assembled cfg base S recv.core.delivered)
    {seqNum : Seq} {p : Nat} {payload : Bytes} (hnum : seqNum = position base p)
    (hpn : p - recv.core.delivered.taken < 2 ^ 31) (hnp : recv.core.delivered.taken - p < 2 ^ 31)
    (hlen : payload.length < 65536) (hpiece : payload <+: S.drop p) :
    Assembled cfg base S (receivePayload cfg turn recv seqNum payload).1.core.delivered ∧
      recv.core.delivered.taken ≤
        (receivePayload cfg turn recv seqNum payload).1.core.delivered.taken := by
  rcases receivePayload_cases turn h.sound h.vmSeq hnum hpn hnp hlen with
    ⟨-, he⟩ | ⟨hle, hlt, -, drained, haccepted⟩ | ⟨hlt, -, he⟩
  · rw [he]
    exact ⟨h, Nat.le_refl _⟩
  · have hopen : recv.peerFin = false := by
      cases hfin : recv.peerFin with
      | false => rfl
      | true =>
          have htaken := h.taken_of_fin hfin
          have := length_le_of_piece hpiece (List.length_pos_iff.mp (by omega))
          omega
    have htaken : recv.core.delivered.taken = recv.accepted.length :=
      Assembled.taken_of_open hopen
    refine haccepted.assembled h hopen ?_
    have hdrop := hpiece.drop (recv.core.delivered.taken - p)
    rwa [List.drop_drop, show p + (recv.core.delivered.taken - p) = recv.accepted.length by omega]
      at hdrop
  · rw [he]
    obtain ⟨reassembly, hbuffered, hsound, hsame, hholds⟩ :=
      bufferReceived_spec h.sound h.vmSeq hnum hlt hpn payload
    rw [hbuffered]
    refine ⟨⟨h.accepted, h.finished, hsame.trans h.vmSeq, hsound, fun k b hb => ?_⟩,
      Nat.le_refl _⟩
    change Holds reassembly.vmSeq reassembly.vmOutOfOrder k b at hb
    rw [hsame] at hb
    rcases (hholds k b).mp hb with hold | ⟨-, hk, -, -, hb'⟩
    · exact h.early k b hold
    · have := getElem?_of_piece hpiece hb'
      rwa [show p + (recv.core.delivered.taken + k - p) = recv.core.delivered.taken + k by omega]
        at this

/-- A FIN is next in sequence only behind the last byte of the stream. -/
theorem receiveFin_assembled {recv : ReceiveCore} (h : Assembled cfg base S recv.delivered)
    {p : Nat} (hnum : seg.seqNum = position base p)
    (hpn : p - recv.delivered.taken < 2 ^ 31)
    (hend : seg.fin = true → p + seg.payload.length = S.length) :
    Assembled cfg base S (receiveFin recv seg).delivered := by
  obtain ⟨-, he⟩ | ⟨hfin, hseq, he⟩ := receiveFin_cases recv seg
  · rw [he]
    exact h
  rw [he]
  have hlen := seg.payload_fits
  have htop := h.taken_le
  have hpos := hend hfin
  have hat : S.length = recv.delivered.taken := by
    refine (position_inj (by omega) (by omega)).mp (?_ : position base _ = position base _)
    rw [← hpos, ← position_add, ← hnum, ← h.vmSeq]
    exact hseq
  have hopen : recv.peerFin = false := by
    cases hpeer : recv.peerFin with
    | false => rfl
    | true =>
        have := h.taken_of_fin hpeer
        omega
  have hall : recv.accepted = S := by
    refine h.accepted.eq_of_length ?_
    exact (Assembled.taken_of_open hopen).symm.trans hat.symm
  -- Nothing can be buffered beyond the end of the stream.
  have hempty : recv.vmOutOfOrder = [] := by
    refine List.eq_nil_iff_forall_not_mem.mpr fun e he => ?_
    obtain ⟨b, hb⟩ := exists_holds_iff.mpr ⟨e, he, Nat.le_refl _,
      Nat.lt_add_of_pos_right (List.length_pos_iff.mpr (h.sound.buffered.nonempty e he))⟩
    have hget := (List.getElem?_eq_some_iff.mp (h.early _ b hb)).1
    omega
  have htaken : (finished recv).delivered.taken = recv.delivered.taken + 1 := by
    simp only [Delivered.taken, finished, ReceiveCore.delivered, hopen, Bool.toNat_true,
      Bool.toNat_false]
  refine ⟨h.accepted, fun _ => hall, ?_, ⟨?_, ?_⟩, fun k b hb => ?_⟩
  · rw [htaken, ← position_add, ← h.vmSeq]
    rfl
  · change Buffered _ _ recv.vmOutOfOrder
    rw [hempty]
    exact ⟨by simp, by simp, .nil⟩
  · exact h.sound.bytes
  · obtain ⟨e, he, -⟩ := hb
    change e ∈ recv.vmOutOfOrder at he
    rw [hempty] at he
    cases he

/-- Payload and FIN of a segment that is a piece of the stream: the step of
every run of arrivals. -/
theorem receiveData_assembled (turn : Turn) (h : Assembled cfg base S recv.core.delivered)
    (hseg : CutFrom base S recv.core.delivered.taken seg) :
    Assembled cfg base S (receiveData cfg turn recv seg).delivered := by
  unfold receiveData
  rcases hseg with ⟨hnil, hfin⟩ | ⟨p, hnum, hpn, hnp, hpiece, hend⟩
  · have he : receivePayload cfg turn recv seg.seqNum seg.payload = (recv, false) := by
      rw [receivePayload, if_pos (by rw [hnil, List.length_nil])]
    rw [he]
    dsimp only
    rw [if_neg Bool.false_ne_true, receiveFin, if_neg (by simp [hfin])]
    exact h
  · obtain ⟨hpayload, hmono⟩ :=
      receivePayload_assembled turn h hnum hpn hnp seg.payload_fits hpiece
    dsimp only
    split
    · exact hpayload
    · exact receiveFin_assembled hpayload hnum (by omega) hend

theorem receiveFin_allWritten {recv : ReceiveCore} (seg : VMSegment)
    (hw : AllWritten recv.delivered) : AllWritten (receiveFin recv seg).delivered := by
  obtain ⟨-, he⟩ | ⟨-, -, he⟩ := receiveFin_cases recv seg <;> rw [he]
  · exact hw
  · exact hw

theorem receiveData_allWritten (cfg : Settings) (turn : Turn)
    (hopen : BringsNew recv seg → recv.sink.writable = true)
    (hw : AllWritten recv.core.delivered) :
    AllWritten (receiveData cfg turn recv seg).delivered := by
  have hpayload := receivePayload_allWritten cfg turn hopen hw
  unfold receiveData
  dsimp only
  split
  · exact hpayload
  · exact receiveFin_allWritten seg hpayload

end Conn

end RootlessRelay
