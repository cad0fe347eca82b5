import RootlessRelay.Tcp.AckCurrency

/-!
# Acknowledged bytes are written

A handler moves `vmSeq` over payload whether or not the sink takes it: `writeTCPReceiveData`
does nothing when the sink is not writable, and its result is ignored. So a byte may be
acknowledged that nobody gets. It takes a segment that gets to the payload part of its
handler, brings something new, and finds the sink closed (`Discards`).

`PassesOn` is what every other callback does. What it moves `vmSeq` over it hands to the
sink, a FIN apart, and whatever it sends acknowledges no more than that. The one callback
that sets `vmSeq` anew is the SYN-ACK that opens a reverse connection.
-/

namespace RootlessRelay

open SequenceSpace Transition SendStream

namespace Conn

/-- The handler of the connection gets to the payload of the segment. It returns
before after a reset, a repeated SYN or SYN-ACK, an acknowledgement number that
is stale or lies in the future, the last acknowledgement of a connection both
sides have closed, and on an outbound connection until the SYN-ACK is
acknowledged. -/
structure ReachesPayload (c : Conn) (seg : VMSegment) : Prop where
  notClosed : c.state ≠ .closed
  notReset : seg.rst = false
  notRepeated : c.repeatsHandshake seg = false
  answers : seg.ack = true → c.Acceptable seg.ackNum ∧ ¬c.Closes seg.ackNum
  started : c.state = .synSent →
    c.direction = .outbound ∧ seg.ack = true ∧ 0 < c.ackedItems seg.ackNum

/-- A segment brings payload that is next, and the sink has stopped accepting
data. The bytes are acknowledged and lost. -/
def Discards (c : Conn) (label : Turn × Event) : Prop :=
  Brings (fun seg => c.recv.sink.writable = false ∧ BringsNew c.recv seg ∧ c.ReachesPayload seg)
    label.2

/-- What `vmSeq` moves over are the bytes of `chunks` and `fin` more, the sink
is handed `chunks`, and what is sent acknowledges no more than that. -/
structure Writes (c c' : Conn) (chunks : List Bytes) (fin : Nat) : Prop where
  written : c'.recv.sink.written = c.recv.sink.written ++ chunks
  vmSeq : c'.recv.vmSeq = position c.recv.vmSeq (chunks.flatten.length + fin)
  acks : ∃ wires, c'.sent = c.sent ++ wires ∧ ∀ wire ∈ wires,
    ∃ n ≤ chunks.flatten.length + fin, wire.acknowledgment = position c.recv.vmSeq n

/-- The SYN-ACK of the VM gives `vmSeq` its first value, and that is what is
acknowledged. -/
structure Starts (c c' : Conn) (seg : VMSegment) : Prop where
  start : c.state = .synSent ∧ c.direction = .reverse ∧ seg.syn = true ∧ seg.ack = true
  written : c'.recv.sink.written = c.recv.sink.written
  vmSeq : c'.recv.vmSeq = seg.seqNum + 1
  acks : ∃ wires, c'.sent = c.sent ++ wires ∧ ∀ wire ∈ wires,
    wire.acknowledgment = c'.recv.vmSeq

/-- No byte is acknowledged that has not been handed to the sink. Apart from
bytes, `vmSeq` moves over a FIN of the VM, once for a segment that has one. -/
def PassesOn (c : Conn) (label : Turn × Event) (c' : Conn) : Prop :=
  (∃ chunks fin, Writes c c' chunks fin ∧
    (fin = 0 ∨ fin = 1 ∧ Brings (fun seg => seg.fin = true) label.2 ∧ c'.recv.peerFin = true)) ∨
  Brings (Starts c c') label.2

variable {cfg : Settings} {turn : Turn} {c c' c'' c₁ : Conn} {seg : VMSegment} {event : Event}
  {refusals : Nat}

instance : DecidablePred c.ReachesPayload := fun seg =>
  decidable_of_iff (c.state ≠ .closed ∧ seg.rst = false ∧ c.repeatsHandshake seg = false ∧
      (seg.ack = true → c.Acceptable seg.ackNum ∧ ¬c.Closes seg.ackNum) ∧
      (c.state = .synSent → c.direction = .outbound ∧ seg.ack = true ∧
        0 < c.ackedItems seg.ackNum))
    ⟨fun h => ⟨h.1, h.2.1, h.2.2.1, h.2.2.2.1, h.2.2.2.2⟩,
      fun h => ⟨h.notClosed, h.notReset, h.notRepeated, h.answers, h.started⟩⟩

instance (label : Turn × Event) : Decidable (c.Discards label) :=
  inferInstanceAs (Decidable (Brings _ _))

/-- What two functions write, one after the other. -/
theorem Writes.trans {chunks chunks' : List Bytes} {fin fin' : Nat} (h : Writes c c' chunks fin)
    (h' : Writes c' c'' chunks' fin') : Writes c c'' (chunks ++ chunks') (fin + fin') := by
  have htotal : (chunks ++ chunks').flatten.length + (fin + fin') =
      (chunks.flatten.length + fin) + (chunks'.flatten.length + fin') := by
    rw [List.flatten_append, List.length_append]
    omega
  obtain ⟨wires, hsent, hwires⟩ := h.acks
  obtain ⟨wires', hsent', hwires'⟩ := h'.acks
  refine ⟨?_, ?_, wires ++ wires', ?_, fun wire hmem => ?_⟩
  · rw [h'.written, h.written, List.append_assoc]
  · rw [h'.vmSeq, h.vmSeq, position_add, htotal]
  · rw [hsent', hsent, List.append_assoc]
  · rw [htotal]
    rcases List.mem_append.mp hmem with hold | hnew
    · obtain ⟨n, hn, hack⟩ := hwires wire hold
      exact ⟨n, by omega, hack⟩
    · obtain ⟨n, hn, hack⟩ := hwires' wire hnew
      exact ⟨chunks.flatten.length + fin + n, by omega, by rw [hack, h.vmSeq, position_add]⟩

/-- `vmSeq` moves first; what is sent afterwards acknowledges it. -/
theorem Sends.writes {recv : ReceiveSide} {chunks : List Bytes} {fin : Nat}
    (h : Sends cfg refusals { c with recv } c')
    (hwritten : c'.recv.sink.written = c.recv.sink.written ++ chunks)
    (hseq : c'.recv.vmSeq = position c.recv.vmSeq (chunks.flatten.length + fin)) :
    Writes c c' chunks fin := by
  obtain ⟨wires, hsent, hwires⟩ := h.wires
  refine ⟨hwritten, hseq, wires, hsent, fun wire hmem => ⟨_, Nat.le_refl _, ?_⟩⟩
  rw [← hseq, (hwires wire hmem).2.1]
  exact h.vmSeq.symm

theorem Writes.of_eq (hsame : (c'.sent, c'.recv) = (c.sent, c.recv)) : Writes c c' [] 0 := by
  obtain ⟨hsent, hrecv⟩ := Prod.mk.inj hsame
  refine ⟨?_, ?_, [], ?_, by simp⟩
  · rw [hrecv, List.append_nil]
  · rw [hrecv]
    exact (position_zero _).symm
  · rw [hsent, List.append_nil]

/-- Nothing is taken from the VM, so nothing has to be written. -/
theorem Sends.quiet {c₀ : Conn} (h : Sends cfg refusals c₀ c')
    (hsame : (c₀.sent, c₀.recv.vmSeq) = (c.sent, c.recv.vmSeq))
    (hdelivered : c'.recv.core.delivered = c.recv.core.delivered) : Writes c c' [] 0 := by
  obtain ⟨hsent₀, hseq₀⟩ := Prod.mk.inj hsame
  obtain ⟨wires, hsent, hwires⟩ := h.wires
  refine ⟨?_, ?_, wires, by rw [hsent, hsent₀], fun wire hmem => ⟨0, Nat.le_refl _, ?_⟩⟩
  · rw [List.append_nil]
    exact congrArg Delivered.written hdelivered
  · exact (congrArg (fun recv : Delivered => recv.vmSeq) hdelivered).trans (position_zero _).symm
  · rw [(hwires wire hmem).2.1, hseq₀, position_zero]

/-- In-order payload and what it connects to, on an open sink. -/
theorem acceptPayload_writes (turn : Turn) {recv : ReceiveSide} (hopen : recv.sink.writable = true)
    (payload : Bytes) : ∃ chunks,
      (acceptPayload turn recv payload).1.sink.written = recv.sink.written ++ chunks ∧
        (acceptPayload turn recv payload).1.vmSeq = position recv.vmSeq chunks.flatten.length := by
  obtain ⟨drained, htaken⟩ := acceptPayload_takenOver turn recv payload
  refine ⟨payload :: drained, ?_, ?_⟩
  · rw [htaken.written, if_pos hopen]
  · rw [htaken.vmSeq, List.flatten_cons, List.length_append]

/-- Payload that brings nothing new leaves `vmSeq` where it is; any other is
written to an open sink. -/
theorem receivePayload_writes (cfg : Settings) (turn : Turn) {recv : ReceiveSide}
    (hopen : BringsNew recv seg → recv.sink.writable = true) : ∃ chunks,
      (receivePayload cfg turn recv seg.seqNum seg.payload).1.sink.written =
          recv.sink.written ++ chunks ∧
        (receivePayload cfg turn recv seg.seqNum seg.payload).1.vmSeq =
          position recv.vmSeq chunks.flatten.length := by
  have hnothing : ∃ chunks, recv.sink.written = recv.sink.written ++ chunks ∧
      recv.vmSeq = position recv.vmSeq chunks.flatten.length :=
    ⟨[], (List.append_nil _).symm, (position_zero _).symm⟩
  unfold receivePayload
  split
  · exact hnothing
  rename_i hempty
  have hne : seg.payload ≠ [] := fun hnil => hempty (by rw [hnil, List.length_nil])
  split
  · rename_i hless
    dsimp only
    split
    · exact hnothing
    · rename_i hmore
      refine acceptPayload_writes turn (hopen ⟨hne, ?_⟩) _
      rw [if_pos hless]
      omega
  · rename_i hless
    split
    · rename_i heq
      refine acceptPayload_writes turn (hopen ⟨hne, ?_⟩) _
      rw [if_neg hless]
      exact heq
    · refine ⟨[], ?_, (bufferReceived_vmSeq cfg recv _ _).trans (position_zero _).symm⟩
      rw [List.append_nil]
      unfold bufferReceived
      split <;> rfl

/-- The payload part of either handler, and the FIN part where it is reached. -/
theorem handleData_sends (cfg : Settings) (turn : Turn) (c : Conn) (seg : VMSegment) :
    ∃ p recv, Sends cfg 0 { c with recv } p ∧
      p.recv.core = (receivePayload cfg turn c.recv seg.seqNum seg.payload).1.core ∧
      (c.handleData cfg turn seg = p ∧
          (receivePayload cfg turn c.recv seg.seqNum seg.payload).2 = true ∨
        (receivePayload cfg turn c.recv seg.seqNum seg.payload).2 = false ∧
          ∃ recv', Sends cfg 0 { p with recv := recv' } (c.handleData cfg turn seg)) := by
  obtain ⟨recv, hpaid⟩ := handleTCPPayload_sends cfg turn c seg
  obtain ⟨-, hcore, hdone⟩ := handleTCPPayload_spec cfg turn c seg
  refine ⟨_, recv, hpaid, hcore, ?_⟩
  rw [← hdone]
  unfold handleData
  cases c.direction with
  | outbound =>
      unfold handleTCPData
      dsimp only
      cases (c.handleTCPPayload cfg turn seg).2 with
      | true => exact .inl ⟨rfl, rfl⟩
      | false => exact .inr ⟨rfl, handleTCPFin_sends cfg _ seg⟩
  | reverse =>
      unfold handleReverseTCPData
      rw [handleReverseTCPPayload_eq]
      dsimp only
      cases (c.handleTCPPayload cfg turn seg).2 with
      | true => exact .inl ⟨rfl, rfl⟩
      | false => exact .inr ⟨rfl, handleReverseTCPFin_sends cfg _ seg⟩

/-- Payload and FIN of a segment, as long as what is new finds the sink open. -/
theorem Live.handleData_writes (h : Live cfg c) (hisOpen : c.state.isOpen = true) (turn : Turn)
    (hopen : BringsNew c.recv seg → c.recv.sink.writable = true) :
    ∃ chunks fin, Writes c (c.handleData cfg turn seg) chunks fin ∧
      (fin = 0 ∨ fin = 1 ∧ seg.fin = true ∧
        (c.handleData cfg turn seg).recv.peerFin = true) := by
  obtain ⟨chunks, hwritten, hseq⟩ := receivePayload_writes cfg turn hopen
  obtain ⟨p, recv, hpaid, hcore, hends⟩ := handleData_sends cfg turn c seg
  have hdata := (handleData_spec h hisOpen turn seg).core
  have hpayload : Writes c p chunks 0 := by
    refine hpaid.writes ?_ ?_
    · exact (congrArg (fun recv : ReceiveCore => recv.sink.written) hcore).trans hwritten
    · exact (congrArg (fun recv : ReceiveCore => recv.vmSeq) hcore).trans hseq
  obtain ⟨hreturned, -⟩ | ⟨hmore, recv', hfin⟩ := hends
  · rw [hreturned]
    exact ⟨chunks, 0, hpayload, .inl rfl⟩
  unfold receiveData at hdata
  dsimp only at hdata
  rw [hmore, if_neg Bool.false_ne_true, ← hcore] at hdata
  obtain ⟨-, he⟩ | ⟨hflag, -, he⟩ := receiveFin_cases p.recv.core seg
  · have hdelivered := congrArg ReceiveCore.delivered (hdata.trans he)
    have hnone : Writes p (c.handleData cfg turn seg) [] 0 := by
      refine hfin.writes ?_ ?_
      · rw [List.append_nil]
        exact congrArg Delivered.written hdelivered
      · exact (congrArg (fun recv : Delivered => recv.vmSeq) hdelivered).trans
          (position_zero _).symm
    exact ⟨_, _, hpayload.trans hnone, .inl rfl⟩
  · have hpassed := hdata.trans he
    have hone : Writes p (c.handleData cfg turn seg) [] 1 := by
      refine hfin.writes ?_ ?_
      · rw [List.append_nil]
        exact congrArg (fun recv : ReceiveCore => recv.sink.written) hpassed
      · exact congrArg (fun recv : ReceiveCore => recv.vmSeq) hpassed
    exact ⟨_, _, hpayload.trans hone, .inr ⟨rfl, hflag, congrArg ReceiveCore.peerFin hpassed⟩⟩

/-- What a handler has done when it comes to the payload, or returns before it. -/
structure Precedes (cfg : Settings) (c : Conn) (seg : VMSegment) (c' : Conn) (done : Bool) :
    Prop where
  writes : Writes c c' [] 0
  goesOn : done = false →
    Live cfg c' ∧ c'.state.isOpen = true ∧ c'.recv.core = c.recv.core ∧ c.ReachesPayload seg

theorem bringsNew_congr {recv recv' : ReceiveSide} (h : recv.core = recv'.core) :
    BringsNew recv seg ↔ BringsNew recv' seg := by
  have hseq : recv.vmSeq = recv'.vmSeq := congrArg (fun recv : ReceiveCore => recv.vmSeq) h
  rw [BringsNew, BringsNew, hseq]

/-- A handler that goes on to payload and FIN, or not. -/
theorem Precedes.passesOn {done : Bool} (h : Precedes cfg c seg c₁ done)
    (hkept : ¬c.Discards (turn, .segment seg)) :
    PassesOn c (turn, .segment seg) (if done then c₁ else c₁.handleData cfg turn seg) := by
  cases done with
  | true => exact .inl ⟨[], 0, h.writes, .inl rfl⟩
  | false =>
      obtain ⟨hlive, hopen, hcore, hreaches⟩ := h.goesOn rfl
      have hsink : c₁.recv.sink = c.recv.sink := congrArg ReceiveCore.sink hcore
      obtain ⟨chunks, fin, hwrites, hfin⟩ := hlive.handleData_writes hopen turn fun hnew => by
        rw [hsink]
        by_contra hshut
        exact hkept ⟨Bool.eq_false_iff.mpr hshut, (bringsNew_congr hcore).mp hnew, hreaches⟩
      have hboth := h.writes.trans hwrites
      rw [List.nil_append, Nat.zero_add] at hboth
      exact .inl ⟨chunks, fin, hboth, hfin⟩

/-- The parts of a handler on an open connection. -/
theorem handleParts_precedes (h : Live cfg c) (hup : Upright c) (hopen : c.state.isOpen = true)
    (hsyn : c.repeatsHandshake seg = false) (hrst : seg.rst = false)
    {proceed : Conn → AckStatus → Bool → Outcome (Conn × Bool)} {data : Conn → VMSegment → Conn}
    (hproceed : seg.ack = true → ∀ c₁ status windowChanged, Noted cfg c seg status c₁ →
      ∃ c₂ done, proceed c₁ status windowChanged = .ok (c₂, done) ∧ Proceeded cfg c seg c₂ done)
    (hsends : ∀ c₁ status windowChanged c₂ done,
      proceed c₁ status windowChanged = .ok (c₂, done) → ∃ refusals, Sends cfg refusals c₁ c₂)
    (hdata : ∀ c₁ : Conn, c₁.direction = c.direction →
      data c₁ seg = c₁.handleData cfg turn seg)
    (hok : c.handleParts cfg turn proceed data seg = .ok c') :
    ∃ c₁ done, c' = (if done then c₁ else c₁.handleData cfg turn seg) ∧
      Precedes cfg c seg c₁ done := by
  have hstarted : c.state = .synSent →
      c.direction = .outbound ∧ seg.ack = true ∧ 0 < c.ackedItems seg.ackNum :=
    fun hs => absurd hs (not_synSent_of_isOpen hopen)
  unfold handleParts at hok
  by_cases hack : seg.ack = true
  swap
  · rw [if_pos (by simpa using hack)] at hok
    cases hok
    exact ⟨c, false, hdata c rfl, .of_eq rfl, fun _ => ⟨h, hopen, rfl,
      h.sending.notClosed, hrst, hsyn, fun ha => absurd ha hack, hstarted⟩⟩
  rw [if_neg (by simp [hack])] at hok
  obtain ⟨c₁, status, windowChanged, hnote, hnoted⟩ := h.noteAck turn seg
  obtain ⟨c₂, done, hgoes, hproceeded⟩ := hproceed hack c₁ status windowChanged hnoted
  rw [hnote] at hok
  dsimp only at hok
  rw [hgoes] at hok
  obtain ⟨refusals, hsent⟩ := hsends c₁ status windowChanged c₂ done hgoes
  have hquiet := (noteAck_sends hnote).after hsent
  have hresult : c' = if done then c₂ else c₂.handleData cfg turn seg := by
    cases done with
    | true => exact (Except.ok.inj hok).symm
    | false => exact (Except.ok.inj hok).symm.trans (hdata c₂ hquiet.direction)
  obtain ⟨rfl, -, -, hdelivered⟩ | ⟨hlive, hrecv, -, hopen₂, hdone, hupright⟩ := hproceeded.outcome
  · exact ⟨c₂, true, hresult, hquiet.quiet rfl hdelivered, fun hno => Bool.noConfusion hno⟩
  · refine ⟨c₂, done, hresult, hquiet.quiet rfl (by rw [hrecv]), fun hgoesOn => ?_⟩
    exact ⟨hlive, hopen₂, by rw [hrecv], h.sending.notClosed, hrst, hsyn,
      fun ha => ⟨hdone.mp hgoesOn ha, (hupright hup).2 ha⟩, hstarted⟩

/-- The established part of `handleTCP`, up to the payload. -/
theorem handleTCPEstablished_precedes (h : Ready cfg c) (hdir : c.direction = .outbound)
    (hopen : c.state.isOpen = true) {windowChanged : Bool}
    (hok : c.handleTCPEstablished cfg turn seg true windowChanged = .ok c') :
    ∃ c₁ done, c' = (if done then c₁ else c₁.handleData cfg turn seg) ∧ Writes c c₁ [] 0 ∧
      (done = false → Live cfg c₁ ∧ c₁.state.isOpen = true ∧ c₁.recv = c.recv) := by
  unfold handleTCPEstablished at hok
  rw [if_neg (by simp [hopen])] at hok
  split at hok
  · cases hok
    exact ⟨c.finishTCPConnection, true, rfl,
      (finishTCPConnection_sends cfg c).quiet rfl (finishTCPConnection_delivered c),
      fun hno => Bool.noConfusion hno⟩
  rw [if_pos rfl] at hok
  have hev₁ := resetDup_evolves h.sending windowChanged
  obtain ⟨c₁, hsend, hlive, hev, -⟩ := (h.resetDup windowChanged).trySend turn fun hs =>
    absurd hs (not_synSent_of_isOpen (hev₁.isOpen hopen))
  have hboth := hev₁.trans hev
  rw [trySend_outbound (hev₁.direction.trans hdir)] at hsend
  have hsent := (resetDup_sends cfg c windowChanged).after (trySendToVM_sends hsend)
  unfold resetDup at hsend
  rw [hsend] at hok
  cases hok
  refine ⟨c₁, false, ?_, hsent.quiet rfl (by rw [hboth.recv]), fun _ =>
    ⟨hlive, hboth.isOpen hopen, hboth.recv⟩⟩
  rw [if_neg Bool.false_ne_true, handleData, hboth.direction.trans hdir]

/-- Before the SYN-ACK of the relay is acknowledged, the handler does not get to
the payload. -/
theorem Live.handshake_precedes (h : Live cfg c) (hup : Upright c) (hdir : c.direction = .outbound)
    (hs : c.state = .synSent) (hsyn : (seg.syn && !seg.ack) = false) (hrst : seg.rst = false)
    (hok : c.handleTCP cfg turn seg = .ok c') :
    ∃ c₁ done, c' = (if done then c₁ else c₁.handleData cfg turn seg) ∧
      Precedes cfg c seg c₁ done := by
  by_cases hack : seg.ack = true
  swap
  · unfold handleTCP handleTCPState at hok
    rw [if_neg (by simp [hsyn]), if_neg (by simp [hrst]), if_pos (by simpa using hack)] at hok
    dsimp only at hok
    rw [if_pos hs, if_pos (by simp)] at hok
    cases hok
    exact ⟨c, true, rfl, .of_eq rfl,
      fun hno => Bool.noConfusion hno⟩
  rw [handleTCP_noteAck cfg turn c hrst hack] at hok
  obtain ⟨c₁, status, windowChanged, hnote, hnoted⟩ := h.noteAck turn seg
  rw [hnote] at hok
  dsimp only at hok
  have hquiet : Writes c c₁ [] 0 := (noteAck_sends hnote).quiet rfl (by rw [hnoted.recv])
  have hdir₁ : c₁.direction = .outbound := (congrArg Context.direction hnoted.context).trans hdir
  have hs₁ : c₁.state = .synSent := hnoted.state.trans hs
  split at hok
  · cases hok
    exact ⟨_, true, rfl, hquiet, fun hno => Bool.noConfusion hno⟩
  rename_i hwaits
  unfold handleTCPState at hok
  dsimp only at hok
  rw [if_pos hs₁] at hok
  split at hok
  · cases hok
    exact ⟨_, true, rfl, hquiet, fun hno => Bool.noConfusion hno⟩
  rename_i hdone
  rw [Bool.or_eq_true, not_or] at hdone
  obtain ⟨hprogress, hout⟩ := hdone
  have hadvanced : status = .advanced := by simpa using hprogress
  subst hadvanced
  have hp := sendTCPAck_passive cfg { c₁ with state := .established }
  have hready := (hnoted.ready.establish hdir₁ hs₁ (Bool.eq_false_iff.mpr hout)).passive hp
  have hacked : Writes c₁ (({ c₁ with state := .established } : Conn).sendTCPAck cfg) [] 0 :=
    (sendTCPAck_sends cfg { c₁ with state := .established }).quiet rfl
      (congrArg ReceiveCore.delivered (sendTCPAck_core cfg { c₁ with state := .established }))
  obtain ⟨c₂, done, hresult, hwrites, hgoes⟩ := handleTCPEstablished_precedes hready
    (hp.direction.trans hdir₁) (by rw [hp.state]; rfl) hok
  refine ⟨c₂, done, hresult, (hquiet.trans hacked).trans hwrites, fun hgoesOn => ?_⟩
  obtain ⟨hlive, hopen, hrecv⟩ := hgoes hgoesOn
  have hcore : c₂.recv.core = c.recv.core := by
    rw [hrecv, sendTCPAck_core, ← hnoted.recv]
  have hopenVM : c.recv.peerFin = false :=
    Bool.eq_false_iff.mpr fun hpeer => (hup.closing hpeer).1 hs
  refine ⟨hlive, hopen, hcore, h.sending.notClosed, hrst, ?_, fun _ => ⟨?_, ?_⟩,
    fun _ => ⟨hdir, hack, hnoted.advances rfl⟩⟩
  · rw [repeatsHandshake, hdir]
    exact hsyn
  · exact hnoted.acceptable.mp (not_or.mp hwaits)
  · exact fun hcloses => Bool.false_ne_true (hopenVM.symm.trans hcloses.1)
/-- The SYN-ACK of the VM is answered with its own number, or ignored. -/
theorem Live.reverseHandshake_starts (h : Live cfg c) (hdir : c.direction = .reverse)
    (hs : c.state = .synSent) (hsyn : (seg.syn && seg.ack) = true)
    (hok : c.handleReverseSynAck cfg turn seg = .ok c') : Writes c c' [] 0 ∨ Starts c c' seg := by
  unfold handleReverseSynAck at hok
  obtain ⟨c₁, acked, he, hadv⟩ | ⟨q, status, he, hne, -⟩ := acknowledge_spec h.sending seg.ackNum
  · right
    obtain ⟨-, hout⟩ := hadv.handshake h.sending hs
    rw [he] at hok
    dsimp only at hok
    rw [if_neg (by simp [hout])] at hok
    obtain ⟨hready, -, hctx⟩ := h.complete hdir hs hadv
    have hp := sendTCPAck_passive cfg (c₁.completed cfg seg)
    have hdir₂ := hp.direction.trans ((congrArg Context.direction hctx).trans hdir)
    obtain ⟨c₂, hsend, -, hev, -⟩ := (hready.passive hp).trySend turn fun hsyn => by
      rw [hp.state] at hsyn
      cases hsyn
    rw [trySend_reverse hdir₂] at hsend
    obtain rfl : c₂ = c' := Except.ok.inj (hsend.symm.trans hok)
    have hcore : c₂.recv.core = { c.recv.core with vmSeq := seg.seqNum + 1 } := by
      rw [hev.recv, sendTCPAck_core]
      exact congrArg Context.recv hctx
    have hseq : c₂.recv.vmSeq = seg.seqNum + 1 :=
      congrArg (fun recv : ReceiveCore => recv.vmSeq) hcore
    obtain ⟨hsyn, hack⟩ := Bool.and_eq_true_iff.mp hsyn
    have hsent := (sendTCPAck_sends cfg (c₁.completed cfg seg)).andThen
      (trySendReverseToVM_sends hsend)
    obtain ⟨wires, hsent, hwires⟩ := hsent.wires
    refine ⟨⟨hs, hdir, hsyn, hack⟩, congrArg (fun recv : ReceiveCore => recv.sink.written) hcore,
      hseq, wires, ?_, fun wire hmem => ?_⟩
    · rw [hsent, completed]
      exact congrArg (· ++ wires) (acknowledge_frame he).2.2
    · rw [(hwires wire hmem).2.1, hseq]
      rfl
  · left
    have hframe := acknowledge_frame he
    rw [he] at hok
    dsimp only at hok
    rw [if_pos (.inl hne)] at hok
    cases hok
    have hsent : Sends cfg 0 c (c.withQueue q) := acknowledge_sends he
    exact hsent.quiet rfl (by rw [hframe.2.1])

/-- `handleTCP` on a live connection, for a segment that finds the sink open or
brings nothing new. -/
theorem Live.handleTCP_passesOn (h : Live cfg c) (hup : Upright c)
    (hdir : c.direction = .outbound) (hkept : ¬c.Discards (turn, .segment seg))
    (hok : c.handleTCP cfg turn seg = .ok c') : PassesOn c (turn, .segment seg) c' := by
  by_cases hsyn : (seg.syn && !seg.ack) = true
  · rw [handleTCP, if_pos hsyn] at hok
    cases hok
    refine .inl ⟨[], 0, ?_, .inl rfl⟩
    split
    · refine (fastRetransmit_sends cfg turn c).quiet rfl ?_
      rw [(fastRetransmit_evolves turn h.sending h.registered).recv]
    · exact .of_eq rfl
  by_cases hrst : seg.rst = true
  · rw [handleTCP, if_neg hsyn, if_pos hrst] at hok
    cases hok
    exact .inl ⟨[], 0, (abortTCPConnection_sends cfg turn c false).quiet rfl
      (abortTCPConnection_delivered turn c false), .inl rfl⟩
  have hsyn := Bool.eq_false_iff.mpr hsyn
  have hrst := Bool.eq_false_iff.mpr hrst
  have hrepeats : c.repeatsHandshake seg = false := by
    rw [repeatsHandshake, hdir]
    exact hsyn
  by_cases hs : c.state = .synSent
  · obtain ⟨c₁, done, rfl, hprecedes⟩ := h.handshake_precedes hup hdir hs hsyn hrst hok
    exact hprecedes.passesOn hkept
  have hopen := h.isOpen hs
  rw [handleTCP_eq hopen hsyn hrst] at hok
  obtain ⟨c₁, done, rfl, hprecedes⟩ := handleParts_precedes h hup hopen hrepeats hrst
    (fun hack _ _ windowChanged hnoted =>
      proceedTCP_spec hnoted hdir hopen hack turn windowChanged)
    (fun _ _ _ _ _ hgoes => proceedTCP_sends hgoes)
    (fun c₁ hdir₁ => by rw [handleData, hdir₁, hdir]) hok
  exact hprecedes.passesOn hkept

/-- The same for `handleReverseTCP`, whose SYN-ACK may start `vmSeq`. -/
theorem Live.handleReverseTCP_passesOn (h : Live cfg c) (hup : Upright c)
    (hdir : c.direction = .reverse) (hkept : ¬c.Discards (turn, .segment seg))
    (hok : c.handleReverseTCP cfg turn seg = .ok c') : PassesOn c (turn, .segment seg) c' := by
  by_cases hrst : seg.rst = true
  · rw [handleReverseTCP, if_pos hrst] at hok
    cases hok
    have hsent := abortReverseConnection_sends cfg turn { c with idleTimer := true } false
    exact .inl ⟨[], 0, hsent.quiet rfl (abortReverseConnection_delivered turn _ false),
      .inl rfl⟩
  by_cases hs : c.state = .synSent
  · rw [handleReverseTCP, if_neg hrst, if_pos hs] at hok
    split at hok
    · rename_i hsynAck
      exact ((h.withIdleTimer true).reverseHandshake_starts hdir hs hsynAck hok).imp
        (fun hwrites => ⟨[], 0, ⟨hwrites.written, hwrites.vmSeq, hwrites.acks⟩, .inl rfl⟩)
        fun hstarts => ⟨hstarts.start, hstarts.written, hstarts.vmSeq, hstarts.acks⟩
    · cases hok
      exact .inl ⟨[], 0, .of_eq rfl, .inl rfl⟩
  by_cases hsyn : (seg.syn && seg.ack) = true
  · rw [handleReverseTCP, if_neg hrst, if_neg hs, if_pos hsyn] at hok
    cases hok
    have hsent := sendTCPAck_sends cfg { c with idleTimer := true }
    exact .inl ⟨[], 0, hsent.quiet rfl
      (congrArg ReceiveCore.delivered (sendTCPAck_core cfg { c with idleTimer := true })),
      .inl rfl⟩
  have hopen := h.isOpen hs
  have hsyn := Bool.eq_false_iff.mpr hsyn
  have hrst := Bool.eq_false_iff.mpr hrst
  rw [handleReverseTCP_eq hopen hsyn hrst] at hok
  have hrepeats : ({ c with idleTimer := true } : Conn).repeatsHandshake seg = false := by
    simp only [repeatsHandshake, hdir]
    exact hsyn
  obtain ⟨c₁, done, rfl, hprecedes⟩ := handleParts_precedes (h.withIdleTimer true)
    ⟨hup.notBoth, hup.closing, hup.handshake⟩ hopen hrepeats hrst
    (fun hack _ _ windowChanged hnoted =>
      proceedReverseTCP_spec hnoted hdir hopen hack turn windowChanged)
    (fun _ _ _ _ _ hgoes => proceedReverseTCP_sends hgoes)
    (fun c₁ hdir₁ => by rw [handleData, hdir₁, hdir]) hok
  have hbefore : Precedes cfg c seg c₁ done := by
    refine ⟨⟨hprecedes.writes.written, hprecedes.writes.vmSeq, hprecedes.writes.acks⟩,
      fun hgoes => ?_⟩
    obtain ⟨hlive, hopen, hcore, hreaches⟩ := hprecedes.goesOn hgoes
    exact ⟨hlive, hopen, hcore, hreaches.notClosed, hreaches.notReset, hreaches.notRepeated,
      hreaches.answers, hreaches.started⟩
  exact hbefore.passesOn hkept

/-- A connection that is closed neither takes anything nor sends anything. -/
theorem Finished.segment_passesOn (h : Finished cfg c) (hok : c.onSegment cfg turn seg = .ok c') :
    PassesOn c (turn, .segment seg) c' := by
  unfold onSegment at hok
  rw [h.direction] at hok
  dsimp only at hok
  obtain habort | ⟨send, hclosed, -⟩ := h.handleTCP_cases turn seg
  · obtain rfl := Except.ok.inj (hok.symm.trans habort)
    exact .inl ⟨[], 0, (abortTCPConnection_sends cfg turn c false).quiet rfl
      (abortTCPConnection_delivered turn c false), .inl rfl⟩
  · obtain rfl := Except.ok.inj (hok.symm.trans hclosed)
    exact .inl ⟨[], 0, .of_eq rfl, .inl rfl⟩

/-- The step lemma: a callback that discards nothing passes on what it
acknowledges. -/
theorem Inv.passesOn_step (h : Inv cfg c) (hup : c.Current → Upright c)
    {label : Turn × Event} (hstep : Step cfg c label c') (hkept : ¬c.Discards label) :
    PassesOn c label c' := by
  obtain ⟨turn, event⟩ := label
  by_cases hother : ∀ seg, event ≠ .segment seg
  · obtain ⟨refusals, c₀, ⟨hsame, hseq⟩, hsent⟩ := handle_sends hother hstep.2
    have hdelivered := (h.delivered_cases hstep).resolve_right fun ⟨seg, hseg, _⟩ =>
      absurd hseg (hother seg)
    have hsent₀ : c₀.sent = c.sent := congrArg (·.2.2.1) hsame
    exact .inl ⟨[], 0, hsent.quiet (by rw [hsent₀, hseq]) hdelivered, .inl rfl⟩
  obtain ⟨seg, rfl⟩ : ∃ seg, event = .segment seg := by simpa using hother
  have hok : c.onSegment cfg turn seg = .ok c' := hstep.2
  rcases h hstep.1.1 with hlive | hfinished
  swap
  · exact hfinished.segment_passesOn hok
  have hup := hup hlive.current
  unfold onSegment at hok
  cases hdir : c.direction with
  | outbound =>
      rw [hdir] at hok
      exact hlive.handleTCP_passesOn hup hdir hkept hok
  | reverse =>
      rw [hdir] at hok
      exact hlive.handleReverseTCP_passesOn hup hdir hkept hok

/-- Where `vmSeq` moves over a byte and the sink is as before, the byte has not
been passed on. -/
theorem not_passesOn_byte {octet : UInt8} (hwritten : c'.recv.sink.written = c.recv.sink.written)
    (hseq : c.recv.vmSeq = 100#32 ∧ c'.recv.vmSeq = 101#32) :
    ¬PassesOn c (exampleByte 100#32 octet) c' := by
  rintro (⟨chunks, fin, hwrites, hfin⟩ | hstarts)
  · obtain rfl : chunks = [] := List.append_right_eq_self.mp (hwrites.written.symm.trans hwritten)
    obtain rfl | ⟨-, hfin, -⟩ := hfin
    · have hstays := hwrites.vmSeq.trans (position_zero _)
      rw [hseq.1, hseq.2] at hstays
      exact absurd hstays (by decide)
    · exact Bool.false_ne_true hfin
  · exact Bool.false_ne_true hstarts.start.2.2.1

end Conn

end RootlessRelay
