import RootlessRelay.Tcp.Assembled
import RootlessRelay.Tcp.Runs

/-!
# Guarantees of the receiving side

What the endpoint gets of the stream the VM sends: a prefix of it, in whatever
pieces and order the segments arrive.

A run feeds a stream `S` to a connection when its segments are pieces of `S`,
each less than half a turn from what has been taken, and find the sink open
until the VM has finished (`Feeds`). Segments may overlap, repeat what has been
taken, or come out of order; any other callback may run in between. `Assembled`
is the invariant: what is taken is a prefix of `S`, and what is buffered stands
at its place in `S`.
-/

namespace RootlessRelay

open SequenceSpace Transition SendStream Reassembly

namespace Conn

variable {cfg : Settings} {turn : Turn} {c c' : Conn} {base : Seq} {S : Bytes}

/-- What a callback does to the bytes taken from the VM: nothing, except for the
segment that opens a reverse connection and for segments whose payload and FIN
are processed. -/
theorem Inv.delivered_cases (h : Inv cfg c) {label : Turn × Event} (hstep : Step cfg c label c') :
    c'.recv.core.delivered = c.recv.core.delivered ∨
      ∃ seg, label.2 = .segment seg ∧
        (seg.syn = true ∧ c.state = .synSent ∧ c.direction = .reverse ∧
            c'.recv.core = { c.recv.core with vmSeq := seg.seqNum + 1 } ∨
          ∃ recv : ReceiveSide, recv.core = c.recv.core ∧
            c'.recv.core = receiveData cfg label.1 recv seg ∧ c.state ≠ .closed ∧
            (c.state = .synSent → c.direction = .outbound) ∧
            (seg.ack = true → c.Acceptable seg.ackNum)) := by
  obtain ⟨henabled, hok⟩ := hstep
  rcases h henabled.1 with hlive | hfinished
  · by_cases hseg : ∃ seg, label.2 = .segment seg
    · obtain ⟨seg, hseg⟩ := hseg
      obtain ⟨d, hd, hreceived⟩ := onSegment_spec hlive label.1 seg
      rw [hseg] at hok
      obtain rfl := Except.ok.inj (hok.symm.trans hd)
      cases hreceived with
      | ended _ delivered => exact .inl delivered
      | idle _ _ context => exact .inl (delivered_of_context context)
      | handshake _ _ start syn context =>
          exact .inr ⟨seg, hseg, .inl ⟨syn, start.1, start.2, congrArg Context.recv context⟩⟩
      | @data c₁ live _ context isOpen reason past =>
          exact .inr ⟨seg, hseg, .inr ⟨c₁.recv, congrArg Context.recv context,
            (handleData_spec live isOpen label.1 seg).core, hlive.sending.notClosed, past, reason⟩⟩
    · obtain ⟨d, hd, hcalled⟩ := hlive.calledBack (fun _ _ => True) label.1 henabled.2
        (fun _ _ _ => trivial) (fun _ _ _ => trivial) fun seg he => hseg ⟨seg, he⟩
      obtain rfl := Except.ok.inj (hok.symm.trans hd)
      exact .inl hcalled.delivered
  · obtain ⟨d, hd, hretired⟩ := hfinished.handle label.1 henabled.2
    obtain rfl := Except.ok.inj (hok.symm.trans hd)
    exact .inl hretired.delivered

/-- Nothing has been taken from the VM yet, as in a connection that has just
been opened. -/
def Untouched (c : Conn) : Prop :=
  c.recv.core.delivered =
    { vmSeq := c.recv.vmSeq, peerFin := false, written := [], accepted := [] }

/-- Segments are pieces of `S` and find the sink open until the VM has finished. -/
def Feeds (base : Seq) (S : Bytes) (c : Conn) (label : Turn × Event) : Prop :=
  match label.2 with
  | .segment seg => seg.syn = false ∧ seg.rst = false ∧
      CutFrom base S c.recv.core.delivered.taken seg ∧
      (c.recv.peerFin = false → c.recv.sink.writable = true)
  | _ => True

/-- The sink has received the prefix of `S` that ends at `vmSeq`, the FIN apart. -/
def StreamDelivered (base : Seq) (S : Bytes) (c : Conn) : Prop :=
  ∃ n ≤ S.length, c.recv.sink.written.flatten = S.take n ∧
    c.recv.vmSeq = position base (n + c.recv.peerFin.toNat) ∧
    (c.recv.peerFin = true → n = S.length)

theorem Untouched.assembled (h : c.Untouched) (cfg : Settings) (S : Bytes) :
    Assembled cfg c.recv.vmSeq S c.recv.core.delivered ∧ AllWritten c.recv.core.delivered := by
  rw [h]
  refine ⟨⟨List.nil_prefix, nofun, (position_zero _).symm, ⟨⟨nofun, nofun, .nil⟩, rfl⟩, ?_⟩, rfl⟩
  rintro k b ⟨e, he, -⟩
  cases he

theorem Assembled.streamDelivered (h : Assembled cfg base S c.recv.core.delivered)
    (hw : AllWritten c.recv.core.delivered) : StreamDelivered base S c :=
  ⟨c.recv.accepted.length, h.accepted.length_le, hw.trans h.accepted_eq, h.vmSeq,
    fun hfin => congrArg List.length (h.finished hfin)⟩

/-- A piece that brings something new arrives before the VM has finished. -/
theorem Assembled.open_of_bringsNew {recv : ReceiveSide} {seg : VMSegment}
    (h : Assembled cfg base S recv.core.delivered)
    (hseg : CutFrom base S recv.core.delivered.taken seg) (hnew : BringsNew recv seg) :
    recv.peerFin = false := by
  cases hfin : recv.peerFin with
  | false => rfl
  | true =>
      have htaken := h.taken_of_fin hfin
      rcases hseg with ⟨hnil, -⟩ | ⟨p, hnum, hpn, hnp, hpiece, -⟩
      · exact absurd hnil hnew.1
      · have hat := (bringsNew_iff h.vmSeq hnum hpn hnp).mp hnew
        have hend := length_le_of_piece hpiece hnew.1
        omega

/-- The step lemma of assembled streams: a segment that is a piece keeps them,
and other callbacks do not touch them. -/
theorem Inv.feeds_step (h : Inv cfg c) {label : Turn × Event} (hstep : Step cfg c label c')
    (hfeeds : Feeds base S c label)
    (hassembled : Assembled cfg base S c.recv.core.delivered ∧ AllWritten c.recv.core.delivered) :
    Assembled cfg base S c'.recv.core.delivered ∧ AllWritten c'.recv.core.delivered := by
  obtain hsame | ⟨seg, hseg, hcases⟩ := h.delivered_cases hstep
  · rwa [hsame]
  · rw [Feeds, hseg] at hfeeds
    obtain ⟨hsyn, -, hcut, hopen⟩ := hfeeds
    obtain ⟨hsyn', -⟩ | ⟨recv, hrecv, hdata, -⟩ := hcases
    · exact absurd (hsyn.symm.trans hsyn') Bool.false_ne_true
    · rw [← hrecv] at hassembled hcut
      have hpeer : recv.peerFin = c.recv.peerFin := congrArg ReceiveCore.peerFin hrecv
      have hsink : recv.sink = c.recv.sink := congrArg ReceiveCore.sink hrecv
      rw [hdata]
      refine ⟨receiveData_assembled label.1 hassembled.1 hcut,
        receiveData_allWritten cfg label.1 (fun hnew => ?_) hassembled.2⟩
      rw [hsink]
      exact hopen (hpeer.symm.trans (hassembled.1.open_of_bringsNew hcut hnew))

theorem Untouched.fed {labels : List (Turn × Event)} (huntouched : c.Untouched)
    (h : Reachable cfg c) (hrun : Run (Restrict (Step cfg) (Feeds c.recv.vmSeq S)) c labels c') :
    Inv cfg c' ∧ Assembled cfg c.recv.vmSeq S c'.recv.core.delivered ∧
      AllWritten c'.recv.core.delivered :=
  hrun.invariant
    (P := fun d => Inv cfg d ∧ Assembled cfg c.recv.vmSeq S d.recv.core.delivered ∧
      AllWritten d.recv.core.delivered)
    (fun _ _ _ hd hstep => ⟨hd.1.step hstep.2, hd.1.feeds_step hstep.2 hstep.1 hd.2⟩)
    ⟨h.inv, huntouched.assembled cfg S⟩

/-- From the moment a connection takes data, the endpoint gets the stream the VM
sends, whatever pieces it arrives in and whatever happens in between. No
callback throws. -/
theorem reachable_delivers_stream {labels : List (Turn × Event)} (h : Reachable cfg c)
    (huntouched : c.Untouched)
    (hrun : Run (Restrict (Step cfg) (Feeds c.recv.vmSeq S)) c labels c') :
    StreamDelivered c.recv.vmSeq S c' ∧
      ∀ turn event, c'.Enabled event → ∃ c'', c'.handle cfg turn event = .ok c'' := by
  obtain ⟨hinv, hassembled, hwritten⟩ := huntouched.fed h hrun
  refine ⟨hassembled.streamDelivered hwritten, fun turn event henabled => ?_⟩
  obtain ⟨c'', hok, -⟩ := hinv.progress turn henabled
  exact ⟨c'', hok⟩

/-- The example connection, fed with `[1, 2, 3, 4]` by segments that lie at one
of its first places. -/
def FeedsExample (c : Conn) (label : Turn × Event) : Prop :=
  match label.2 with
  | .segment seg => seg.syn = false ∧ seg.rst = false ∧
      (∃ p < 5, seg.seqNum = position 100#32 p ∧
        p - c.recv.core.delivered.taken < 2 ^ 31 ∧ c.recv.core.delivered.taken - p < 2 ^ 31 ∧
        seg.payload <+: ([1, 2, 3, 4] : Bytes).drop p ∧
        (seg.fin = true → p + seg.payload.length = 4)) ∧
      (c.recv.peerFin = false → c.recv.sink.writable = true)
  | _ => False

instance (c : Conn) (label : Turn × Event) : Decidable (c.FeedsExample label) := by
  unfold FeedsExample
  split
  · infer_instance
  · infer_instance

theorem FeedsExample.feeds {label : Turn × Event} (h : c.FeedsExample label) :
    Feeds exampleOutbound.recv.vmSeq [1, 2, 3, 4] c label := by
  unfold FeedsExample at h
  unfold Feeds
  split at h
  · obtain ⟨hsyn, hrst, ⟨p, -, hp⟩, hopen⟩ := h
    exact ⟨hsyn, hrst, .inr ⟨p, hp⟩, hopen⟩
  · cases h

/-- The second half first, then the first half with an overlap, then the FIN. -/
theorem reachable_delivers_stream_overlap :
    ∃ c : Conn, c.recv.sink.written = [[1, 2, 3], [4]] ∧ c.recv.peerFin = true ∧
      StreamDelivered exampleOutbound.recv.vmSeq [1, 2, 3, 4] c := by
  obtain ⟨c, hrun, hc⟩ := exists_restricted_run {} FeedsExample exampleOutbound
    [({}, .segment { seqNum := 102#32, ackNum := 8#32, ack := true, payload := [3, 4] }),
      ({}, .segment { seqNum := 100#32, ackNum := 8#32, ack := true, payload := [1, 2, 3] }),
      ({}, .segment { seqNum := 104#32, ackNum := 8#32, ack := true, fin := true })]
    (fun c => c.recv.sink.written = [[1, 2, 3], [4]] && c.recv.peerFin) (by decide +kernel)
  simp only [Bool.and_eq_true, decide_eq_true_eq] at hc
  have hfed := hrun.mono fun _ _ _ (hs : Restrict _ _ _ _ _) =>
    (⟨FeedsExample.feeds hs.1, hs.2⟩ : Restrict _ _ _ _ _)
  exact ⟨c, hc.1, hc.2, (reachable_delivers_stream
    ⟨exampleOutbound, opened_exampleOutbound, .refl _⟩ rfl hfed).1⟩

theorem Opened.untouched (h : Opened cfg c) : c.Untouched := by
  cases h with
  | outbound hopen =>
      obtain ⟨c₀, flags, -, -, -, -, -, hrecv, rfl⟩ := openOutbound_ok hopen
      change c₀.recv.core.delivered = { vmSeq := c₀.recv.vmSeq, .. }
      rw [hrecv]
      rfl
  | reverse hopen =>
      obtain rfl := transmit_of_openReverse hopen
      rfl

end Conn

end RootlessRelay
