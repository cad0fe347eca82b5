import RootlessRelay.Tcp.Closing

/-!
# Acknowledgements of early segments

A data segment beyond `vmSeq` is answered at once, so that a peer that counts
duplicate acknowledgements can repeat what was lost. Every answer repeats the
acknowledgement number, but it also advertises what is left of the buffer: a
segment that adds bytes to the buffer changes the window, and the answer is no
duplicate by the relay's own test.

The window is cut off at 65535, so a buffer that is larger than that hides its
first changes. `Shrinks` is when the change shows, in terms of the segment and
the state before it; `Waiting` is the invariant of a run in which only such
segments arrive, and it carries how many bytes the buffer has gained.
-/

namespace RootlessRelay

open SequenceSpace Transition Reassembly

namespace Conn

/-- A data segment that lies beyond `vmSeq`: it has payload, and a gap lies
before it. -/
def Beyond (c : Conn) (seg : VMSegment) : Prop :=
  (seg.payload ≠ [] ∧ seg.syn = false ∧ seg.rst = false) ∧
    seg.seqNum ≠ c.recv.vmSeq ∧ seqLessThan seg.seqNum c.recv.vmSeq = false

/-- The VM sends a data segment beyond `vmSeq`. Other events may come in
between. -/
def BeyondStep (cfg : Settings) : Conn → Turn × Event → Conn → Prop :=
  Restrict (Step cfg) fun c label => Brings c.Beyond label.2

/-- The acknowledgements sent since `c₀`: whatever occupies no sequence space. -/
def acksSince (c₀ c : Conn) : List WireSegment :=
  (c.sent.drop c₀.sent.length).filter fun wire => ¬wire.Sequenced

/-- By the test of `isDuplicateAck`, `later` repeats `first`: the same number
and window, and nothing else. -/
def Duplicates (first later : WireSegment) : Prop :=
  later.acknowledgment = first.acknowledgment ∧ later.window = first.window ∧
    later.payload = [] ∧ later.flags.syn = false ∧ later.flags.fin = false

/-- All acknowledgements since `c₀` are duplicates of each other, in either
order. -/
def GenuineDuplicates (c₀ c : Conn) : Prop :=
  ∀ first ∈ acksSince c₀ c, ∀ later ∈ acksSince c₀ c, Duplicates first later

/-- The handler does not ignore the segment for its acknowledgement number. -/
def Answers (c : Conn) (seg : VMSegment) : Prop := seg.ack = true → c.Acceptable seg.ackNum

/-- The bytes of the segment that fit into the buffer and are not in it yet,
counted by their places. -/
def newBytes (cfg : Settings) (c : Conn) (seg : VMSegment) : ℕ :=
  ((Finset.Ico (distance seg.seqNum c.recv.vmSeq)
    (min (distance seg.seqNum c.recv.vmSeq + seg.payload.length) cfg.receiveCapacity)).filter
      fun k => ¬Covered c.recv.vmSeq c.recv.vmOutOfOrder k).card

/-- The answer to the segment advertises a smaller window than before. New bytes
below the cut at 65535 do not show. -/
def Shrinks (cfg : Settings) (c : Conn) (seg : VMSegment) : Prop :=
  c.Answers seg ∧ 0 < c.newBytes cfg seg ∧
    cfg.tcpWindowSize < c.recv.vmOutOfOrderBytes + c.newBytes cfg seg + 65535

variable {cfg : Settings} {turn : Turn} {c c' c₀ : Conn} {seg : VMSegment}

instance : Decidable (c.Beyond seg) := inferInstanceAs (Decidable (_ ∧ _))

instance : Decidable (c.Answers seg) := inferInstanceAs (Decidable (seg.ack = true → _))

instance : DecidablePred (c.Shrinks cfg) := fun seg =>
  inferInstanceAs (Decidable (c.Answers seg ∧ _ ∧ _))

instance (first later : WireSegment) : Decidable (Duplicates first later) :=
  inferInstanceAs (Decidable (_ ∧ _))

instance : Decidable (GenuineDuplicates c₀ c) :=
  inferInstanceAs (Decidable (∀ first ∈ _, ∀ later ∈ _, _))

/-- Payload beyond `vmSeq` is buffered and answered at once, by both handlers. -/
theorem handleData_beyond (cfg : Settings) (turn : Turn) (h : c.Beyond seg) :
    c.handleData cfg turn seg =
      ({ c with recv := bufferReceived cfg c.recv seg.seqNum seg.payload }).scheduleTCPAck cfg 0
        true := by
  obtain ⟨⟨hpayload, -⟩, hne, hnot⟩ := h
  have hlen : seg.payload.length ≠ 0 := by
    rwa [ne_eq, List.length_eq_zero_iff]
  unfold handleData
  split
  · simp [handleTCPData, handleTCPPayload, hlen, hne, hnot]
  · simp [handleReverseTCPData, handleReverseTCPPayload, hlen, hnot, seqLessThan_of_ne hne hnot]

/-- The wire of an immediate acknowledgement: `vmSeq`, the current window, no
payload. -/
theorem scheduleTCPAck_immediate (cfg : Settings) (c : Conn) (segments : Nat) :
    ∃ wire, (c.scheduleTCPAck cfg segments true).sent = c.sent ++ [wire] ∧
      wire.acknowledgment = c.recv.vmSeq ∧
      wire.window = (c.scheduleTCPAck cfg segments true).tcpReceiveWindow cfg ∧
      wire.payload = [] ∧ wire.flags.syn = false ∧ wire.flags.fin = false := by
  unfold scheduleTCPAck
  simp only [Bool.true_or, if_true, sendTCPAck_eq]
  exact ⟨_, rfl, rfl, rfl, rfl, rfl, rfl⟩

/-- The acknowledgements of two stretches of a run. -/
theorem acksSince_append {c₀ c c' : Conn} {wires wires' : List WireSegment}
    (h : c.sent = c₀.sent ++ wires) (h' : c'.sent = c.sent ++ wires') :
    acksSince c₀ c' = acksSince c₀ c ++ wires'.filter fun wire => ¬wire.Sequenced := by
  unfold acksSince
  rw [h', h, List.append_assoc, List.drop_left, List.drop_left, List.filter_append]

theorem Sequences.acks (h : Sequences c c') {wires : List WireSegment}
    (hsent : c.sent = c₀.sent ++ wires) : acksSince c₀ c' = acksSince c₀ c := by
  obtain ⟨wires', hsent', hall⟩ := h
  rw [acksSince_append hsent hsent']
  have hnone : wires'.filter (fun wire => ¬wire.Sequenced) = [] :=
    List.filter_eq_nil_iff.mpr fun wire hmem => by simpa using hall wire hmem
  rw [hnone, List.append_nil]

/-- Buffering adds exactly the new bytes to the count. -/
theorem bufferReceived_bytes (h : c.recv.toReassembly.Sound cfg.receiveCapacity)
    (hback : c.recv.receiveBackpressured = false) (hne : seg.seqNum ≠ c.recv.vmSeq) :
    (bufferReceived cfg c.recv seg.seqNum seg.payload).vmOutOfOrderBytes =
      c.recv.vmOutOfOrderBytes + c.newBytes cfg seg := by
  have hstart : 0 < distance seg.seqNum c.recv.vmSeq :=
    Nat.pos_of_ne_zero (mt distance_eq_zero.mp hne)
  obtain ⟨hsound, hseq, hholds⟩ :=
    h.bufferTCPOutOfOrder (receiveCapacity_le cfg) seg.seqNum seg.payload
  unfold bufferReceived
  rw [if_neg (by simp [hback])]
  change (bufferTCPOutOfOrder c.recv.toReassembly seg.seqNum seg.payload
    cfg.receiveCapacity).vmOutOfOrderBytes = _
  generalize bufferTCPOutOfOrder c.recv.toReassembly seg.seqNum seg.payload
    cfg.receiveCapacity = conn at hsound hseq hholds ⊢
  have hcovered : ∀ k, Covered c.recv.vmSeq conn.vmOutOfOrder k ↔
      Covered c.recv.vmSeq c.recv.vmOutOfOrder k ∨
        distance seg.seqNum c.recv.vmSeq ≤ k ∧ k < cfg.receiveCapacity ∧
          ¬Covered c.recv.vmSeq c.recv.vmOutOfOrder k ∧
            k < distance seg.seqNum c.recv.vmSeq + seg.payload.length := by
    intro k
    unfold Covered
    rw [← exists_holds_iff, ← exists_holds_iff]
    simp only [hholds, exists_or]
    refine or_congr_right ⟨?_, ?_⟩
    · rintro ⟨b, -, hle, hlt, hfree, hb⟩
      have := (List.getElem?_eq_some_iff.mp hb).1
      exact ⟨hle, hlt, hfree, by omega⟩
    · rintro ⟨hle, hlt, hfree, hin⟩
      exact ⟨_, hstart, hle, hlt, hfree, List.getElem?_eq_getElem (by omega)⟩
  have hbefore := h.bytes.trans h.buffered.totalBytes_eq
  have hafter := hsound.bytes.trans hsound.buffered.totalBytes_eq
  rw [hseq] at hafter
  rw [hbefore, hafter, newBytes, ← Finset.card_union_of_disjoint]
  · congr 1
    ext k
    simp only [Finset.mem_filter, Finset.mem_range, Finset.mem_union, Finset.mem_Ico, hcovered]
    by_cases hk : Covered c.recv.vmSeq c.recv.vmOutOfOrder k
    · simp [hk]
    · simp only [hk, false_or, not_false_eq_true, and_true, true_and, and_false]
      omega
  · rw [Finset.disjoint_left]
    intro k hk hk'
    exact (Finset.mem_filter.mp hk').2 (Finset.mem_filter.mp hk).2

theorem bufferReceived_sound (h : c.recv.toReassembly.Sound cfg.receiveCapacity)
    (seg : VMSegment) :
    (bufferReceived cfg c.recv seg.seqNum seg.payload).toReassembly.Sound cfg.receiveCapacity ∧
      (bufferReceived cfg c.recv seg.seqNum seg.payload).vmSeq = c.recv.vmSeq ∧
      (bufferReceived cfg c.recv seg.seqNum seg.payload).receiveBackpressured =
        c.recv.receiveBackpressured ∧
      (bufferReceived cfg c.recv seg.seqNum seg.payload).peerFin = c.recv.peerFin := by
  unfold bufferReceived
  split
  · exact ⟨h, rfl, rfl, rfl⟩
  · obtain ⟨hsound, hseq, -⟩ :=
      h.bufferTCPOutOfOrder (receiveCapacity_le cfg) seg.seqNum seg.payload
    exact ⟨hsound, hseq, rfl, rfl⟩

/-- What is buffered fits into the window that is advertised. -/
theorem bytes_le_window (h : c.recv.toReassembly.Sound cfg.receiveCapacity) :
    c.recv.vmOutOfOrderBytes ≤ cfg.tcpWindowSize := by
  rw [h.bytes, h.buffered.totalBytes_eq]
  refine (Finset.card_filter_le _ _).trans ?_
  rw [Finset.card_range]
  exact Nat.min_le_right _ _

theorem tcpReceiveWindow_free (hback : c.recv.receiveBackpressured = false) :
    c.tcpReceiveWindow cfg = min 0xffff (cfg.tcpWindowSize - c.recv.vmOutOfOrderBytes) := by
  rw [tcpReceiveWindow, if_neg (by simp [hback])]

/-- What holds while `vmSeq` waits for a segment that was lost. -/
structure Waiting (cfg : Settings) (c₀ c : Conn) : Prop where
  live : Live cfg c
  isOpen : c.state.isOpen = true
  peerFin : c.recv.peerFin = false
  free : c.recv.receiveBackpressured = false
  vmSeq : c.recv.vmSeq = c₀.recv.vmSeq
  sound : c.recv.toReassembly.Sound cfg.receiveCapacity
  sent : ∃ wires, c.sent = c₀.sent ++ wires
  acks : ∀ wire ∈ acksSince c₀ c, wire.acknowledgment = c₀.recv.vmSeq ∧ wire.payload = [] ∧
    wire.flags.syn = false ∧ wire.flags.fin = false
  window : acksSince c₀ c ≠ [] → ∃ wire ∈ acksSince c₀ c, wire.window = c.tcpReceiveWindow cfg

/-- What the answer to a segment adds to the acknowledgements, and which window
it carries. -/
structure Answered (cfg : Settings) (c₀ c : Conn) (seg : VMSegment) (c' : Conn)
    (wire : WireSegment) : Prop where
  acks : acksSince c₀ c' = acksSince c₀ c ++ [wire]
  window : wire.window = c'.tcpReceiveWindow cfg
  bytes : c'.recv.vmOutOfOrderBytes = c.recv.vmOutOfOrderBytes + c.newBytes cfg seg

theorem Waiting.of_established (h : Reachable cfg c₀) (hcurrent : c₀.registered = true)
    (hstate : c₀.state = .established) (hback : c₀.recv.receiveBackpressured = false) :
    Waiting cfg c₀ c₀ := by
  have hcur : c₀.Current := ⟨hcurrent, by rw [hstate]; decide⟩
  have hpeer : c₀.recv.peerFin = false :=
    Bool.eq_false_iff.mpr fun hp => ((h.upright hcur).closing hp).2 hstate
  have hnone : acksSince c₀ c₀ = [] := by simp [acksSince]
  exact ⟨h.live hcur, by rw [hstate]; rfl, hpeer, hback, rfl, h.sound hpeer, ⟨[], by simp⟩,
    by simp [hnone], fun hne => absurd hnone hne⟩

/-- A segment beyond `vmSeq` is answered by one acknowledgement, or it is
ignored. -/
theorem Waiting.step (h : Waiting cfg c₀ c) (hbeyond : c.Beyond seg)
    (hok : c.handle cfg turn (.segment seg) = .ok c') :
    Waiting cfg c₀ c' ∧ (¬c.Answers seg ∧ acksSince c₀ c' = acksSince c₀ c ∨
      c.Answers seg ∧ ∃ wire, Answered cfg c₀ c seg c' wire) := by
  obtain ⟨wires, hsent⟩ := h.sent
  obtain ⟨c₁, done, hd, hsequences, houtcome⟩ :=
    onSegment_open h.live h.isOpen hbeyond.1.2.1 hbeyond.1.2.2 turn
  obtain rfl := Except.ok.inj (hok.symm.trans hd)
  obtain ⟨-, -, hpeer, -⟩ | ⟨hlive, hrecv, hctx, hopen, hdone, -⟩ := houtcome
  · exact absurd (h.peerFin.symm.trans hpeer) Bool.false_ne_true
  have hacks := hsequences.acks hsent
  obtain ⟨wires₁, hsent₁, -⟩ := hsequences
  have hsent₁ : c₁.sent = c₀.sent ++ (wires ++ wires₁) := by
    rw [hsent₁, hsent, List.append_assoc]
  have hwindow : c₁.tcpReceiveWindow cfg = c.tcpReceiveWindow cfg := by
    unfold tcpReceiveWindow
    rw [hrecv]
  cases done with
  | true =>
      have hignored : ¬c.Answers seg := fun hans => absurd (hdone.mpr hans) (by decide)
      simp only [if_true]
      refine ⟨⟨hlive, hopen, ?_, ?_, ?_, ?_, ⟨_, hsent₁⟩, ?_, ?_⟩, .inl ⟨hignored, hacks⟩⟩
      · exact (congrArg ReceiveSide.peerFin hrecv).trans h.peerFin
      · exact (congrArg ReceiveSide.receiveBackpressured hrecv).trans h.free
      · exact (congrArg (fun recv : ReceiveSide => recv.vmSeq) hrecv).trans h.vmSeq
      · rw [hrecv]
        exact h.sound
      · rw [hacks]
        exact h.acks
      · rw [hacks, hwindow]
        exact h.window
  | false =>
      have hanswers : c.Answers seg := hdone.mp rfl
      have hbeyond₁ : c₁.Beyond seg := by
        unfold Beyond
        rw [hrecv]
        exact hbeyond
      have hsound₁ : c₁.recv.toReassembly.Sound cfg.receiveCapacity := by
        rw [hrecv]
        exact h.sound
      have hnew : c₁.newBytes cfg seg = c.newBytes cfg seg := by
        unfold newBytes
        rw [hrecv]
      have hbytes : (bufferReceived cfg c₁.recv seg.seqNum seg.payload).vmOutOfOrderBytes =
          c.recv.vmOutOfOrderBytes + c.newBytes cfg seg := by
        rw [bufferReceived_bytes hsound₁
          ((congrArg ReceiveSide.receiveBackpressured hrecv).trans h.free) hbeyond₁.2.1, hnew, hrecv]
      obtain ⟨hsound, hseq, hfree, hpeer⟩ := bufferReceived_sound hsound₁ seg
      rw [if_neg Bool.false_ne_true, handleData_beyond cfg turn hbeyond₁]
      have hp := (Passive.withRecv c₁ (bufferReceived cfg c₁.recv seg.seqNum seg.payload)).trans
        (scheduleTCPAck_passive cfg _ 0 true)
      have hcore := scheduleTCPAck_core cfg
        { c₁ with recv := bufferReceived cfg c₁.recv seg.seqNum seg.payload } 0 true
      obtain ⟨wire, hemitted, hnumber, hadvertised, hempty, hsyn, hfin⟩ := scheduleTCPAck_immediate
        cfg { c₁ with recv := bufferReceived cfg c₁.recv seg.seqNum seg.payload } 0
      generalize ({ c₁ with recv := bufferReceived cfg c₁.recv seg.seqNum seg.payload } :
        Conn).scheduleTCPAck cfg 0 true = c' at hp hcore hemitted hadvertised ⊢
      have hreassembly : c'.recv.toReassembly =
          (bufferReceived cfg c₁.recv seg.seqNum seg.payload).toReassembly :=
        congrArg ReceiveCore.toReassembly hcore
      have hplain : ¬wire.Sequenced := by
        simp [WireSegment.Sequenced, sequenceLength, hempty, hsyn, hfin]
      have hall : acksSince c₀ c' = acksSince c₀ c ++ [wire] := by
        rw [acksSince_append hsent₁ hemitted, hacks]
        simp [hplain]
      have hvmSeq : c₁.recv.vmSeq = c₀.recv.vmSeq := by
        rw [hrecv]
        exact h.vmSeq
      refine ⟨⟨hlive.passive hp, ?_, ?_, ?_, ?_, ?_, ?_, ?_, ?_⟩,
        .inr ⟨hanswers, wire, hall, hadvertised, ?_⟩⟩
      · rw [hp.state]
        exact hopen
      · exact ((congrArg ReceiveCore.peerFin hcore).trans hpeer).trans
          ((congrArg ReceiveSide.peerFin hrecv).trans h.peerFin)
      · exact ((congrArg ReceiveCore.receiveBackpressured hcore).trans hfree).trans
          ((congrArg ReceiveSide.receiveBackpressured hrecv).trans h.free)
      · rw [hreassembly]
        exact hseq.trans hvmSeq
      · rw [hreassembly]
        exact hsound
      · exact ⟨_, hemitted.trans (by rw [hsent₁, List.append_assoc])⟩
      · intro ack hmem
        rw [hall, List.mem_append, List.mem_singleton] at hmem
        rcases hmem with hold | rfl
        · exact h.acks ack hold
        · exact ⟨hnumber.trans (hseq.trans hvmSeq), hempty, hsyn, hfin⟩
      · intro _
        rw [hall]
        exact ⟨wire, List.mem_append_right _ (List.mem_singleton_self wire), hadvertised⟩
      · rw [hreassembly]
        exact hbytes

/-- While `vmSeq` waits, the acknowledgements are duplicates exactly if all of
them advertise the current window. -/
theorem Waiting.genuineDuplicates_iff (h : Waiting cfg c₀ c) :
    GenuineDuplicates c₀ c ↔ ∀ wire ∈ acksSince c₀ c, wire.window = c.tcpReceiveWindow cfg := by
  constructor
  · intro hgenuine wire hmem
    obtain ⟨latest, hlatest, hwindow⟩ := h.window (List.ne_nil_of_mem hmem)
    exact (hgenuine latest hlatest wire hmem).2.1.trans hwindow
  · intro hall first hfirst later hlater
    obtain ⟨hnumber, hplain⟩ := h.acks later hlater
    exact ⟨hnumber.trans (h.acks first hfirst).1.symm,
      (hall later hlater).trans (hall first hfirst).symm, hplain⟩

theorem Waiting.window_changes (h : Waiting cfg c₀ c) (h' : Waiting cfg c₀ c')
    (hbytes : c'.recv.vmOutOfOrderBytes = c.recv.vmOutOfOrderBytes + c.newBytes cfg seg) :
    c'.tcpReceiveWindow cfg ≠ c.tcpReceiveWindow cfg ↔ 0 < c.newBytes cfg seg ∧
      cfg.tcpWindowSize < c.recv.vmOutOfOrderBytes + c.newBytes cfg seg + 65535 := by
  have hfits := bytes_le_window h'.sound
  rw [tcpReceiveWindow_free h.free, tcpReceiveWindow_free h'.free, hbytes]
  rw [hbytes] at hfits
  omega

theorem BeyondStep.segment {label : Turn × Event} (h : BeyondStep cfg c label c') :
    ∃ seg, label.2 = .segment seg ∧ c.Beyond seg ∧
      c.handle cfg label.1 (.segment seg) = .ok c' := by
  obtain ⟨turn, event⟩ := label
  cases event with
  | segment seg => exact ⟨seg, rfl, h.1, h.2.2⟩
  | _ => exact h.1.elim

/-- The acknowledgements stay duplicates exactly if an answer after the first
does not shrink the window. -/
theorem Waiting.genuineDuplicates_step (h : Waiting cfg c₀ c) (hbeyond : c.Beyond seg)
    (hok : c.handle cfg turn (.segment seg) = .ok c') :
    GenuineDuplicates c₀ c' ↔
      GenuineDuplicates c₀ c ∧ ¬(acksSince c₀ c ≠ [] ∧ c.Shrinks cfg seg) := by
  obtain ⟨h', ⟨hignored, hacks⟩ | ⟨hanswers, wire, hacks, hwindow, hbytes⟩⟩ := h.step hbeyond hok
  · have hno : ¬c.Shrinks cfg seg := fun hshrinks => hignored hshrinks.1
    simp only [GenuineDuplicates, hacks, hno, and_false, not_false_eq_true, and_true]
  have hchanges := h.window_changes h' hbytes
  rw [h'.genuineDuplicates_iff, h.genuineDuplicates_iff, hacks]
  constructor
  · intro hall
    have hlast := hall wire (List.mem_append_right _ (List.mem_singleton_self wire))
    by_cases hnone : acksSince c₀ c = []
    · rw [hnone]
      exact ⟨fun _ hmem => absurd hmem List.not_mem_nil, fun hboth => hboth.1 rfl⟩
    obtain ⟨first, hfirst, hcurrent⟩ := h.window hnone
    have hkept : c'.tcpReceiveWindow cfg = c.tcpReceiveWindow cfg :=
      (hall first (List.mem_append_left _ hfirst)).symm.trans hcurrent
    exact ⟨fun ack hmem => (hall ack (List.mem_append_left _ hmem)).trans hkept,
      fun hboth => hchanges.mpr hboth.2.2 hkept⟩
  · rintro ⟨hall, hno⟩ ack hmem
    rcases List.mem_append.mp hmem with hold | hnew
    · have hkept : c'.tcpReceiveWindow cfg = c.tcpReceiveWindow cfg := by
        by_contra hne
        exact hno ⟨List.ne_nil_of_mem hold, hanswers, hchanges.mp hne⟩
      exact (hall ack hold).trans hkept.symm
    · rw [List.mem_singleton.mp hnew]
      exact hwindow

/-- All acknowledgements of a run of early segments are duplicates exactly if no
segment but the first one answered shrinks the window. -/
theorem run_genuineDuplicates_iff {labels : List (Turn × Event)} (h : Reachable cfg c₀)
    (hstate : c₀.state = .established) (hback : c₀.recv.receiveBackpressured = false)
    (hrun : Run (BeyondStep cfg) c₀ labels c) :
    GenuineDuplicates c₀ c ↔
      Run (Restrict (BeyondStep cfg) fun d label =>
        ¬(acksSince c₀ d ≠ [] ∧ Brings (d.Shrinks cfg) label.2)) c₀ labels c := by
  have hnone : acksSince c₀ c₀ = [] := by simp [acksSince]
  have hstart : GenuineDuplicates c₀ c₀ := by
    intro first hfirst
    rw [hnone] at hfirst
    cases hfirst
  cases hregistered : c₀.registered with
  | true =>
      refine hrun.holds_iff ⟨Waiting.of_established h hregistered hstate hback, hstart⟩
        (fun d label e hwaiting hstep => ?_) fun d label e hwaiting hstep => ?_
      · obtain ⟨seg, -, hbeyond, hok⟩ := hstep.segment
        exact (hwaiting.step hbeyond hok).1
      · obtain ⟨seg, hseg, hbeyond, hok⟩ := hstep.segment
        rw [hseg]
        exact hwaiting.genuineDuplicates_step hbeyond hok
  | false =>
      obtain ⟨rfl, rfl⟩ := hrun.eq_of_stuck (by
        rintro label d ⟨-, ⟨hopen, -⟩, -⟩
        exact absurd (hopen.symm.trans hregistered) Bool.true_eq_false.mp)
      exact iff_of_true hstart (.nil _)

/-- A byte of the VM. -/
def exampleByte (seqNum : Seq) (octet : UInt8) : Turn × Event :=
  ({}, .segment
    { seqNum, ackNum := 8#32, ack := true, window := 1000#16, payload := [octet]
      payload_fits := by simp })

/-- A run from an established connection that can be computed. -/
theorem exists_established_run (allowed : Conn → Conn → Turn × Event → Prop)
    [∀ c₀ c label, Decidable (allowed c₀ c label)] (labels : List (Turn × Event))
    (p : Conn → Conn → Bool)
    (h : (exampleOutbound.execute {} (fun _ _ => True)
      [({}, .segment { seqNum := 100#32, ackNum := 8#32, ack := true, window := 1000#16 })]).any
        (fun c₀ => c₀.state = .established && !c₀.recv.receiveBackpressured &&
          (c₀.execute {} (allowed c₀) labels).any (p c₀)) = true) :
    ∃ c₀ c : Conn, Reachable {} c₀ ∧ c₀.state = .established ∧
      c₀.recv.receiveBackpressured = false ∧
      Run (Restrict (Step {}) (allowed c₀)) c₀ labels c ∧ p c₀ c = true := by
  obtain ⟨c₀, hrun, hc₀⟩ := exists_run {} exampleOutbound _ _ h
  simp only [Bool.and_eq_true, decide_eq_true_eq, Bool.not_eq_true'] at hc₀
  obtain ⟨⟨hstate, hback⟩, hany⟩ := hc₀
  obtain ⟨c, hrun', hp⟩ := exists_restricted_run {} (allowed c₀) c₀ labels (p c₀) hany
  exact ⟨c₀, c, ⟨exampleOutbound, opened_exampleOutbound, _, hrun⟩, hstate, hback, hrun', hp⟩

/-- The VM repeats a byte: both answers are the same. -/
theorem run_genuineDuplicates_iff_repeated :
    ∃ c₀ c : Conn, Run (BeyondStep {}) c₀ [exampleByte 101#32 2, exampleByte 101#32 2] c ∧
      (acksSince c₀ c).length = 2 ∧ GenuineDuplicates c₀ c := by
  obtain ⟨c₀, c, hreach, hstate, hback, hrun, hc⟩ := exists_established_run
    (fun c₀ d label => ¬(acksSince c₀ d ≠ [] ∧ Brings (d.Shrinks {}) label.2) ∧
      Brings d.Beyond label.2)
    [exampleByte 101#32 2, exampleByte 101#32 2] (fun c₀ c => (acksSince c₀ c).length = 2)
    (by decide)
  have hbeyond : Run (BeyondStep {}) c₀ [exampleByte 101#32 2, exampleByte 101#32 2] c :=
    hrun.mono fun _ _ _ h => ⟨h.1.2, h.2⟩
  refine ⟨c₀, c, hbeyond, of_decide_eq_true hc, ?_⟩
  exact (run_genuineDuplicates_iff hreach hstate hback hbeyond).mpr
    (hrun.mono fun _ _ _ h => ⟨h.1.1, h.1.2, h.2⟩)

/-- The VM loses the first of three bytes: the answers to the others advertise
different windows. -/
theorem early_answers_differ :
    ∃ c₀ c : Conn, Reachable {} c₀ ∧ c₀.state = .established ∧
      c₀.recv.receiveBackpressured = false ∧
      Run (BeyondStep {}) c₀ [exampleByte 101#32 2, exampleByte 102#32 3] c ∧
      (acksSince c₀ c).map (fun wire => (wire.acknowledgment, wire.window)) =
        [(100#32, 10239), (100#32, 10238)] ∧
      ¬GenuineDuplicates c₀ c := by
  obtain ⟨c₀, c, hreach, hstate, hback, hrun, hc⟩ := exists_established_run
    (fun _ d label => Brings d.Beyond label.2) [exampleByte 101#32 2, exampleByte 102#32 3]
    (fun c₀ c => (acksSince c₀ c).map (fun wire => (wire.acknowledgment, wire.window)) =
      [(100#32, 10239), (100#32, 10238)] && ¬GenuineDuplicates c₀ c) (by decide)
  rw [Bool.and_eq_true, decide_eq_true_eq, decide_eq_true_eq] at hc
  exact ⟨c₀, c, hreach, hstate, hback, hrun, hc⟩

end Conn

end RootlessRelay
