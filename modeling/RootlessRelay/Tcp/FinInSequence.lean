import RootlessRelay.Tcp.Closing

/-!
# A FIN that is next in sequence

The payload part of a handler returns early for payload that has all been
received before, and with it the FIN of that segment is passed over. Any other
FIN that comes next in sequence ends the sink, if the handler gets as far as the
payload.

A VM that repeats its last segment together with its FIN runs into the early
return, for instance when the acknowledgement of the data was lost and the FIN
had not yet been sent. The two handlers have the slip in common. What is proved
here says for every segment and every open connection when the FIN is taken.
-/

namespace RootlessRelay

open SequenceSpace Transition SendStream

namespace Conn

variable {cfg : Settings} {turn : Turn} {c c' : Conn} {seg : VMSegment}

section Definitions

variable (cfg : Settings) (turn : Turn) (c : Conn) (seg : VMSegment)

/-- Once the payload has been processed, the FIN is the next thing in sequence.
This is what a TCP must act on. -/
def FinIsNext : Prop :=
  seg.fin = true ∧ seg.seqNum + BitVec.ofNat 32 seg.payload.length =
    (receivePayload cfg turn c.recv seg.seqNum seg.payload).1.vmSeq

/-- The receiving side has taken the payload and then the FIN: `vmSeq` is one
further, `peerFin` is set and the sink has ended. -/
def TakesFin (c' : Conn) : Prop :=
  c'.recv.core = finished (receivePayload cfg turn c.recv seg.seqNum seg.payload).1.core

/-- The segment has payload, and all of it lies behind `vmSeq`: its end is
exactly where `vmSeq` stands. -/
def WhollyOld : Prop :=
  seg.payload ≠ [] ∧ seg.seqNum + BitVec.ofNat 32 seg.payload.length = c.recv.vmSeq

instance (c' : Conn) : Decidable (TakesFin cfg turn c seg c') :=
  inferInstanceAs (Decidable (_ = _))

instance : Decidable (FinIsNext cfg turn c seg) := inferInstanceAs (Decidable (_ ∧ _))

instance : Decidable (c.WhollyOld seg) := inferInstanceAs (Decidable (_ ∧ _))

end Definitions

theorem add_vmSeq (conn : Reassembly) (payload : Bytes) (start lo hi : Nat) :
    (conn.add payload start lo hi).vmSeq = conn.vmSeq := by
  unfold Reassembly.add
  split <;> rfl

/-- Buffering does not move `vmSeq`. -/
theorem fillGaps_vmSeq (payload : Bytes) (start stop cursor : Nat) (conn : Reassembly)
    (ranges : List (Seq × Bytes)) :
    (conn.fillGaps payload start stop cursor ranges).vmSeq = conn.vmSeq := by
  induction ranges generalizing cursor conn with
  | nil => exact add_vmSeq conn payload start cursor stop
  | cons range rest ih =>
      unfold Reassembly.fillGaps
      dsimp only
      split
      · exact add_vmSeq conn payload start cursor stop
      split
      · exact ih cursor conn
      split
      · exact add_vmSeq conn payload start cursor _
      · exact (ih _ _).trans (add_vmSeq conn payload start cursor _)

theorem bufferReceived_vmSeq (cfg : Settings) (recv : ReceiveSide) (sequence : Seq)
    (payload : Bytes) : (bufferReceived cfg recv sequence payload).vmSeq = recv.vmSeq := by
  unfold bufferReceived bufferTCPOutOfOrder
  dsimp only
  split
  · rfl
  split
  · rfl
  · exact fillGaps_vmSeq payload _ _ _ _ _

/-- A payload that ends where `vmSeq` stands covers the distance to its own
number. -/
theorem seqDiff_of_ends {vmSeq seqNum : Seq} {length : Nat} (hlen : length < 65536)
    (hends : seqNum + BitVec.ofNat 32 length = vmSeq) : seqDiff vmSeq seqNum = length := by
  unfold seqDiff
  have hsub : vmSeq - seqNum = BitVec.ofNat 32 length := by
    rw [← hends, BitVec.add_comm, BitVec.add_sub_cancel]
  rw [hsub, BitVec.toNat_ofNat, Nat.mod_eq_of_lt (by omega), if_neg (by omega)]

/-- Where the FIN is next, the payload part returns early for old payload and
for no other. -/
theorem receivePayload_done_iff {recv : ReceiveSide} {seqNum : Seq} {payload : Bytes}
    (hlen : payload.length < 65536)
    (hnext : seqNum + BitVec.ofNat 32 payload.length =
      (receivePayload cfg turn recv seqNum payload).1.vmSeq) :
    (receivePayload cfg turn recv seqNum payload).2 = true ↔
      payload ≠ [] ∧ seqNum + BitVec.ofNat 32 payload.length = recv.vmSeq := by
  unfold receivePayload at hnext ⊢
  dsimp only at hnext ⊢
  by_cases hempty : payload.length = 0
  · rw [if_pos hempty]
    exact iff_of_false Bool.false_ne_true fun hold => hold.1 (List.eq_nil_of_length_eq_zero hempty)
  have hne : payload ≠ [] := fun he => hempty (by rw [he, List.length_nil])
  rw [if_neg hempty] at hnext ⊢
  split at hnext
  · rename_i hold
    rw [if_pos hold]
    split at hnext
    · rename_i hhave
      rw [if_pos hhave]
      exact iff_of_true rfl ⟨hne, hnext⟩
    · rename_i hmore
      rw [if_neg hmore]
      refine iff_of_false Bool.false_ne_true fun hends => hmore ?_
      exact Nat.le_of_eq (seqDiff_of_ends hlen hends.2).symm
  · rename_i hnot
    rw [if_neg hnot]
    split at hnext
    · rename_i heq
      rw [if_pos heq]
      refine iff_of_false Bool.false_ne_true fun hends => hempty ?_
      have hzero := seqDiff_of_ends hlen hends.2
      rw [heq] at hzero
      simpa [seqDiff] using hzero.symm
    · rename_i hahead
      rw [if_neg hahead]
      exact iff_of_true rfl ⟨hne, hnext.trans (bufferReceived_vmSeq cfg recv seqNum payload)⟩

/-- What payload and FIN leave, where the FIN is next. -/
theorem receiveData_finished_iff (h : FinIsNext cfg turn c seg) (hopen : c.recv.peerFin = false) :
    receiveData cfg turn c.recv seg =
        finished (receivePayload cfg turn c.recv seg.seqNum seg.payload).1.core ↔
      ¬c.WhollyOld seg := by
  obtain ⟨hfin, hnext⟩ := h
  have hdone := receivePayload_done_iff seg.payload_fits hnext
  unfold WhollyOld receiveData
  dsimp only
  rw [← hdone]
  cases hret : (receivePayload cfg turn c.recv seg.seqNum seg.payload).2 with
  | true =>
      rw [if_pos rfl]
      refine iff_of_false (fun he => ?_) (not_not_intro rfl)
      have hpeer := (receivePayload_peerFin cfg turn c.recv seg.seqNum seg.payload).trans hopen
      exact Bool.false_ne_true (hpeer.symm.trans (congrArg ReceiveCore.peerFin he))
  | false =>
      rw [if_neg Bool.false_ne_true]
      refine iff_of_true ?_ Bool.false_ne_true
      obtain ⟨hno, -⟩ | ⟨-, -, he⟩ := receiveFin_cases
        (receivePayload cfg turn c.recv seg.seqNum seg.payload).1.core seg
      · exact hno.elim (fun hf => absurd (hf.symm.trans hfin) Bool.false_ne_true)
          fun hs => absurd hnext hs
      · exact he

/-- A connection whose VM has not finished afterwards has not taken the FIN. -/
theorem not_takesFin_of_open (hopen : c'.recv.peerFin = false) : ¬TakesFin cfg turn c seg c' :=
  fun he => Bool.false_ne_true (hopen.symm.trans (congrArg ReceiveCore.peerFin he))

/-- After the parts of a handler: the FIN is taken exactly if they go on to the
payload, and it is not old. -/
theorem Proceeded.takesFin_iff {done : Bool} {c₁ : Conn} (h : Proceeded cfg c seg c₁ done)
    (hnext : FinIsNext cfg turn c seg) (hopen : c.recv.peerFin = false) :
    TakesFin cfg turn c seg (if done then c₁ else c₁.handleData cfg turn seg) ↔
      (seg.ack = true → c.Acceptable seg.ackNum) ∧ ¬c.WhollyOld seg := by
  obtain ⟨-, -, hpeer, -⟩ | ⟨hlive, hrecv, -, hisOpen, hdone, -⟩ := h.outcome
  · exact absurd (hopen.symm.trans hpeer) Bool.false_ne_true
  rw [← hdone]
  cases done with
  | true =>
      refine iff_of_false (not_takesFin_of_open ?_) fun hno => Bool.true_eq_false.mp hno.1
      rw [if_pos rfl, hrecv]
      exact hopen
  | false =>
      rw [if_neg Bool.false_ne_true, TakesFin, (handleData_spec hlive hisOpen turn seg).core, hrecv,
        receiveData_finished_iff hnext hopen]
      exact ⟨fun hnew => ⟨rfl, hnew⟩, fun hboth => hboth.2⟩

/-- A FIN that comes next is taken exactly if the handler does not return before
the payload and the payload is not wholly old. -/
theorem finInSequence_taken_iff (h : Reachable cfg c) (hreg : c.registered = true)
    (hstate : c.state = .established) (hnext : FinIsNext cfg turn c seg) :
    ∃ c', c.handle cfg turn (.segment seg) = .ok c' ∧
      (TakesFin cfg turn c seg c' ↔ ¬c.Drops seg ∧ ¬c.WhollyOld seg) := by
  have hcurrent : c.Current := ⟨hreg, by rw [hstate]; decide⟩
  have hlive := h.live hcurrent
  have hisOpen : c.state.isOpen = true := by
    rw [hstate]
    rfl
  have hopen : c.recv.peerFin = false :=
    Bool.eq_false_iff.mpr fun hpeer => ((h.upright hcurrent).closing hpeer).2 hstate
  have hsynSent := not_synSent_of_isOpen hisOpen
  change ∃ c', c.onSegment cfg turn seg = .ok c' ∧ _
  unfold onSegment
  cases hdir : c.direction with
  | outbound =>
      dsimp only
      by_cases hsyn : (seg.syn && !seg.ack) = true
      · rw [handleTCP, if_pos hsyn, if_neg hsynSent]
        refine ⟨c, rfl, iff_of_false (not_takesFin_of_open hopen) fun hno => hno.1 (.inr (.inl ?_))⟩
        rw [repeatsHandshake, hdir]
        exact hsyn
      by_cases hrst : seg.rst = true
      · rw [handleTCP, if_neg hsyn, if_pos hrst]
        refine ⟨_, rfl, iff_of_false (not_takesFin_of_open ?_) fun hno => hno.1 (.inl hrst)⟩
        exact (congrArg Delivered.peerFin (abortTCPConnection_delivered turn c false)).trans hopen
      obtain ⟨c₁, done, hok, hproceeded⟩ := handleTCP_open hlive hdir hisOpen
        (Bool.eq_false_iff.mpr hsyn) (Bool.eq_false_iff.mpr hrst) turn
      refine ⟨_, hok, (hproceeded.takesFin_iff hnext hopen).trans (and_congr_left fun _ => ?_)⟩
      rw [Drops, repeatsHandshake, hdir]
      simp [hsyn, hrst]
  | reverse =>
      dsimp only
      by_cases hrst : seg.rst = true
      · rw [handleReverseTCP, if_pos hrst]
        refine ⟨_, rfl, iff_of_false (not_takesFin_of_open ?_) fun hno => hno.1 (.inl hrst)⟩
        exact (congrArg Delivered.peerFin (abortReverseConnection_delivered turn
          ({ c with idleTimer := true } : Conn) false)).trans hopen
      by_cases hsyn : (seg.syn && seg.ack) = true
      · rw [handleReverseTCP, if_neg hrst, if_neg hsynSent, if_pos hsyn]
        refine ⟨_, rfl, iff_of_false (not_takesFin_of_open ?_)
          fun hno => hno.1 (.inr (.inl (by rw [repeatsHandshake, hdir]; exact hsyn)))⟩
        exact (congrArg ReceiveCore.peerFin
          (sendTCPAck_core cfg ({ c with idleTimer := true } : Conn))).trans hopen
      obtain ⟨c₁, done, hok, hproceeded⟩ := handleReverseTCP_open hlive hdir hisOpen
        (Bool.eq_false_iff.mpr hsyn) (Bool.eq_false_iff.mpr hrst) turn
      refine ⟨_, hok, (hproceeded.takesFin_iff hnext hopen).trans (and_congr_left fun _ => ?_)⟩
      rw [Drops, repeatsHandshake, hdir]
      simp [hsyn, hrst]

theorem first_fits : ([1] : Bytes).length < 65536 := by decide

/-- Byte `1` of the VM at sequence number 100, which also completes the
handshake. -/
def exampleFirst : Turn × Event :=
  ({}, .segment
    { seqNum := 100#32, ackNum := 8#32, ack := true, window := 1000#16, payload := [1]
      payload_fits := first_fits })

/-- The same byte again, followed by `payload` and a FIN. With no payload the
segment is wholly old but for the FIN. -/
def exampleLast (payload : Bytes) (h : payload.length < 65535) : VMSegment where
  seqNum := 100#32
  ackNum := 8#32
  ack := true
  fin := true
  window := 1000#16
  payload := 1 :: payload
  payload_fits := by
    rw [List.length_cons]
    omega

/-- One more byte with the repeated one: the FIN behind it is taken. -/
theorem finInSequence_taken_iff_overlap :
    ∃ c c' : Conn, c.handle {} {} (.segment (exampleLast [2] (by decide))) = .ok c' ∧
      TakesFin {} {} c (exampleLast [2] (by decide)) c' ∧ c'.recv.vmSeq = 103#32 := by
  obtain ⟨c, hrun, hc⟩ := exists_run {} exampleOutbound [exampleFirst]
    (fun c => decide ((c.state = .established ∧ c.registered = true) ∧
      FinIsNext {} {} c (exampleLast [2] (by decide)) ∧
      ¬c.Drops (exampleLast [2] (by decide)) ∧ ¬c.WhollyOld (exampleLast [2] (by decide))))
    (by decide)
  obtain ⟨⟨hstate, hreg⟩, hnext, hgood⟩ := of_decide_eq_true hc
  obtain ⟨c', hok, htakes⟩ :=
    finInSequence_taken_iff ⟨exampleOutbound, opened_exampleOutbound, _, hrun⟩ hreg hstate hnext
  have hcore := htakes.mpr hgood
  refine ⟨c, c', hok, hcore, ?_⟩
  have hseq : c'.recv.vmSeq = (receivePayload {} {} c.recv 100#32 [1, 2]).1.vmSeq + 1 :=
    congrArg (fun recv : ReceiveCore => recv.vmSeq) hcore
  rw [hseq]
  exact congrArg (· + 1) hnext.2.symm

/-- The VM repeats its last byte together with its FIN, because the answer to
the byte was lost: the FIN is passed over. -/
theorem repeated_last_data_loses_fin :
    ∃ c c' : Conn, Reachable {} c ∧ c.registered = true ∧ c.state = .established ∧
      FinIsNext {} {} c (exampleLast [] (by decide)) ∧
      ¬c.Drops (exampleLast [] (by decide)) ∧
      c.handle {} {} (.segment (exampleLast [] (by decide))) = .ok c' ∧
      c'.recv.vmSeq = c.recv.vmSeq ∧ c'.recv.peerFin = false ∧ c'.recv.sink.ended = false ∧
      ¬TakesFin {} {} c (exampleLast [] (by decide)) c' := by
  obtain ⟨c, hrun, hc⟩ := exists_run {} exampleOutbound [exampleFirst]
    (fun c => decide ((c.registered = true ∧ c.state = .established) ∧
      FinIsNext {} {} c (exampleLast [] (by decide)) ∧ ¬c.Drops (exampleLast [] (by decide))) &&
      (c.execute {} (fun _ _ => True)
        [({}, .segment (exampleLast [] (by decide)))]).any fun c' =>
          decide (c'.recv.vmSeq = c.recv.vmSeq ∧ c'.recv.peerFin = false ∧
            c'.recv.sink.ended = false)) (by decide)
  rw [Bool.and_eq_true, decide_eq_true_eq] at hc
  obtain ⟨⟨⟨hreg, hstate⟩, hnext, hgood⟩, hany⟩ := hc
  obtain ⟨c', hlast, hc'⟩ := exists_run {} c _ _ hany
  obtain ⟨hseq, hpeer, hended⟩ := of_decide_eq_true hc'
  obtain ⟨-, hok⟩ := Run.single_iff.mp hlast
  exact ⟨c, c', ⟨exampleOutbound, opened_exampleOutbound, _, hrun⟩, hreg, hstate, hnext, hgood,
    hok, hseq, hpeer, hended, not_takesFin_of_open hpeer⟩

end Conn

end RootlessRelay
