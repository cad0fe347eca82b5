import RootlessRelay.Library.StreamAssembly
import RootlessRelay.Tcp.ReceiveGuarantees

/-!
# The order in which segments arrive

The receiving side holds places of the incoming stream: those below `vmSeq` and
those buffered. A segment inside the window adds the places it carries, in
whatever order segments come, so how far `vmSeq` gets depends on the segments
alone. The exception are segments that are overtaken: both handlers return
before they look at the payload when the acknowledgement number is no longer
current.

The places of the segments that are not overtaken, and the first place missing
among them, decide how far the stream is taken (`StreamAssembly.Frontier`).
Whether a segment is overtaken is read off the connection just before it
arrives. An order of arrival completes the stream exactly if none of its places
is left to segments that are overtaken.
-/

namespace RootlessRelay

open SequenceSpace Transition Reassembly StreamAssembly

/-- The places of the incoming stream that have been taken or are buffered. -/
def Delivered.held (recv : Delivered) : Set ℕ :=
  {k | k < recv.taken ∨
    ∃ j b, k = recv.taken + j ∧ Holds recv.vmSeq recv.vmOutOfOrder j b}

theorem Delivered.mem_held {recv : Delivered} {k : ℕ} : k ∈ recv.held ↔ k < recv.taken ∨
    ∃ j b, k = recv.taken + j ∧ Holds recv.vmSeq recv.vmOutOfOrder j b := Iff.rfl

namespace Conn

variable {cfg : Settings} {turn : Turn} {c c' : Conn} {recv recv' : ReceiveSide} {base : Seq}
  {S payload : Bytes} {seg : VMSegment}

theorem Assembled.frontier {recv : Delivered} (h : Assembled cfg base S recv) :
    Frontier recv.held recv.taken := by
  refine ⟨fun k hk => .inl hk, ?_⟩
  rintro (hlt | ⟨j, b, hj, hb⟩)
  · exact Nat.lt_irrefl _ hlt
  · have := (h.sound.buffered.holds_bound hb).1
    omega

/-- Payload taken at `vmSeq` fills its own places; what it connects to was held. -/
theorem Accepted.held {drained : List Bytes} (hopen : recv.peerFin = false)
    (h : Accepted cfg turn recv recv' payload drained) :
    recv'.core.delivered.held = recv.core.delivered.held ∪
      Set.Ico recv.core.delivered.taken (recv.core.delivered.taken + payload.length) := by
  have htaken : recv'.core.delivered.taken =
      recv.core.delivered.taken + (payload.length + drained.flatten.length) := by
    rw [Assembled.taken_of_open (h.peerFin.trans hopen), Assembled.taken_of_open hopen]
    change recv'.accepted.length = recv.accepted.length + _
    rw [h.accepted, List.length_append, List.length_append, Nat.add_assoc]
  ext k
  rw [Set.mem_union, Delivered.mem_held, Delivered.mem_held, htaken, Set.mem_Ico]
  generalize recv.core.delivered.taken = n
  constructor
  · rintro (hk | ⟨j, b, rfl, hb⟩)
    · by_cases hold : k < n + payload.length
      · omega
      · have hi : k - n - payload.length < drained.flatten.length := by omega
        exact .inl (.inr ⟨k - n, _, by omega, by
          have := h.content _ _ (List.getElem?_eq_getElem hi)
          rwa [show payload.length + (k - n - payload.length) = k - n by omega] at this⟩)
    · exact .inl (.inr ⟨_, b, by omega, (h.holds j b).mp hb⟩)
  · rintro ((hk | ⟨j, b, rfl, hb⟩) | ⟨hk, hk'⟩)
    · exact .inl (by omega)
    · by_cases hold : j < payload.length + drained.flatten.length
      · exact .inl (by omega)
      · refine .inr ⟨j - (payload.length + drained.flatten.length), b, by omega,
          (h.holds _ b).mpr ?_⟩
        rw [show payload.length + drained.flatten.length +
          (j - (payload.length + drained.flatten.length)) = j by omega]
        exact hb
    · exact .inl (by omega)

/-- A payload inside the window adds exactly its places, and takes none away. -/
theorem receivePayload_held (h : Assembled cfg base S recv.core.delivered)
    (hopen : recv.peerFin = false) (hback : recv.receiveBackpressured = false) {seqNum : Seq}
    {p : Nat} (hnum : seqNum = position base p) (hpn : p - recv.core.delivered.taken < 2 ^ 31)
    (hnp : recv.core.delivered.taken - p < 2 ^ 31) (hlen : payload.length < 65536)
    (hwindow : p + payload.length ≤ recv.core.delivered.taken + cfg.receiveCapacity) :
    (receivePayload cfg turn recv seqNum payload).1.core.delivered.held =
      recv.core.delivered.held ∪ Set.Ico p (p + payload.length) := by
  rcases receivePayload_cases turn h.sound h.vmSeq hnum hpn hnp hlen with
    ⟨hold, he⟩ | ⟨hle, hlt, -, drained, haccepted⟩ | ⟨hlt, -, he⟩
  · rw [he]
    change recv.core.delivered.held = _
    refine (Set.union_eq_self_of_subset_right fun k hk => .inl ?_).symm
    obtain ⟨hk, hk'⟩ := Set.mem_Ico.mp hk
    rcases hold with hnil | hold
    · rw [hnil, List.length_nil] at hk'
      omega
    · omega
  · rw [haccepted.held hopen, List.length_drop]
    ext k
    simp only [Set.mem_union, Set.mem_Ico]
    constructor
    · rintro (hk | hk)
      · exact .inl hk
      · exact .inr ⟨by omega, by omega⟩
    · rintro (hk | hk)
      · exact .inl hk
      · by_cases hk' : k < recv.core.delivered.taken
        · exact .inl (.inl hk')
        · exact .inr ⟨by omega, by omega⟩
  · rw [he]
    obtain ⟨reassembly, hbuffered, hsound, hsame, hholds⟩ :=
      bufferReceived_spec h.sound h.vmSeq hnum hlt hpn payload
    rw [hbuffered]
    have hhere : ∀ j b, Holds reassembly.vmSeq reassembly.vmOutOfOrder j b ↔
        Holds recv.vmSeq reassembly.vmOutOfOrder j b := fun j b => by rw [hsame]
    ext k
    rw [Set.mem_union, Delivered.mem_held, Set.mem_Ico]
    change (k < recv.core.delivered.taken ∨ ∃ j b, k = recv.core.delivered.taken + j ∧
      Holds reassembly.vmSeq reassembly.vmOutOfOrder j b) ↔ _
    simp only [hhere, hholds]
    constructor
    · rintro (hk | ⟨j, b, rfl, hb | ⟨-, hj, hj', -, hb⟩⟩)
      · exact .inl (.inl hk)
      · exact .inl (.inr ⟨j, b, rfl, hb⟩)
      · have := (List.getElem?_eq_some_iff.mp hb).1
        exact .inr (by omega)
    · rintro ((hk | ⟨j, b, rfl, hb⟩) | ⟨hk, hk'⟩)
      · exact .inl hk
      · exact .inr ⟨j, b, rfl, .inl hb⟩
      · obtain ⟨j, rfl⟩ : ∃ j, k = recv.core.delivered.taken + j :=
          ⟨k - recv.core.delivered.taken, by omega⟩
        by_cases hfree : ∃ b, Holds recv.vmSeq recv.vmOutOfOrder j b
        · obtain ⟨b, hb⟩ := hfree
          exact .inr ⟨j, b, rfl, .inl hb⟩
        · have hi : recv.core.delivered.taken + j - p < payload.length := by omega
          exact .inr ⟨j, _, rfl, .inr ⟨hback, hk, by omega, hfree,
            List.getElem?_eq_getElem hi⟩⟩

/-- The place of a segment in the stream, for a window that starts at `n`. -/
def place (base : Seq) (n : ℕ) (seg : VMSegment) : ℕ := n + distance seg.seqNum (position base n)

/-- The places a segment carries, an interval of the stream. -/
def carried (base : Seq) (n : ℕ) (seg : VMSegment) : Set ℕ :=
  Set.Ico (place base n seg) (place base n seg + seg.payload.length)

/-- A piece of `S` inside the receive window that starts at `n`, without SYN,
RST or FIN. -/
def InWindow (cfg : Settings) (base : Seq) (S : Bytes) (n : ℕ) (seg : VMSegment) : Prop :=
  seg.syn = false ∧ seg.rst = false ∧ seg.fin = false ∧
    place base n seg + seg.payload.length ≤ n + cfg.receiveCapacity ∧
    seg.payload <+: S.drop (place base n seg)

/-- The acknowledgement number is no longer current when the segment arrives. -/
def Overtaken (c : Conn) (seg : VMSegment) : Prop := seg.ack = true ∧ ¬c.Acceptable seg.ackNum

instance (c : Conn) (seg : VMSegment) : Decidable (c.Overtaken seg) :=
  inferInstanceAs (Decidable (_ ∧ _))

/-- The segments that are not overtaken when it is their turn, in the order of
their arrival. -/
def kept (cfg : Settings) (c : Conn) : List (Turn × VMSegment) → List VMSegment
  | [] => []
  | (turn, seg) :: rest =>
    let later := match c.onSegment cfg turn seg with
      | .ok c => c.kept cfg rest
      | .error _ => []
    if c.Overtaken seg then later else seg :: later

/-- The segments that are kept come in the order of their arrival. -/
theorem kept_sublist (cfg : Settings) (arrivals : List (Turn × VMSegment)) (c : Conn) :
    (c.kept cfg arrivals).Sublist (arrivals.map Prod.snd) := by
  induction arrivals generalizing c with
  | nil => exact .slnil
  | cons arrival rest ih =>
      obtain ⟨turn, seg⟩ := arrival
      unfold kept
      rw [List.map_cons]
      cases c.onSegment cfg turn seg with
      | ok c₁ =>
          dsimp only
          split
          · exact (ih c₁).cons seg
          · exact (ih c₁).cons_cons seg
      | error thrown =>
          dsimp only
          split
          · exact List.nil_sublist _
          · exact (List.nil_sublist _).cons_cons seg

theorem position_place (base : Seq) (n : ℕ) (seg : VMSegment) :
    position base (place base n seg) = seg.seqNum := by
  rw [place, ← position_add]
  exact position_distance _ _

/-- An established connection whose sink takes everything. -/
structure Receiving (cfg : Settings) (base : Seq) (S : Bytes) (c : Conn) : Prop where
  live : Live cfg c
  isOpen : c.state.isOpen = true
  peerFin : c.recv.peerFin = false
  writable : c.recv.sink.writable = true
  flowing : c.recv.receiveBackpressured = false
  assembled : Assembled cfg base S c.recv.core.delivered
  allWritten : AllWritten c.recv.core.delivered

/-- The receiving side after a segment without FIN. -/
theorem receiveData_of_noFin (cfg : Settings) (turn : Turn) (recv : ReceiveSide)
    (hfin : seg.fin = false) : receiveData cfg turn recv seg =
      (receivePayload cfg turn recv seg.seqNum seg.payload).1.core := by
  unfold receiveData
  dsimp only
  split
  · rfl
  · rw [receiveFin, if_neg (by simp [hfin])]

/-- A sink that takes everything stays open through the payload of a segment,
and the VM is not paused. -/
theorem receivePayload_open (cfg : Settings) (turn : Turn) (recv : ReceiveSide) (seqNum : Seq)
    (payload : Bytes) (hturn : ∀ k, turn.sinkAccepts k = true) :
    (receivePayload cfg turn recv seqNum payload).1.peerFin = recv.peerFin ∧
      (receivePayload cfg turn recv seqNum payload).1.sink.writable = recv.sink.writable ∧
      (receivePayload cfg turn recv seqNum payload).1.receiveBackpressured =
        recv.receiveBackpressured := by
  have htaken : ∀ payload, (acceptPayload turn recv payload).1.peerFin = recv.peerFin ∧
      (acceptPayload turn recv payload).1.sink.writable = recv.sink.writable ∧
      (acceptPayload turn recv payload).1.receiveBackpressured = recv.receiveBackpressured := by
    intro payload
    obtain ⟨drained, h⟩ := acceptPayload_takenOver turn recv payload
    exact ⟨h.peerFin, h.writable, h.backpressured hturn⟩
  unfold receivePayload
  split
  · exact ⟨rfl, rfl, rfl⟩
  split
  · dsimp only
    split
    · exact ⟨rfl, rfl, rfl⟩
    · exact htaken _
  split
  · exact htaken _
  · unfold bufferReceived
    split <;> exact ⟨rfl, rfl, rfl⟩

/-- One segment inside the window: its places are added unless it is overtaken. -/
theorem Receiving.segment {n : ℕ} (h : Receiving cfg base S c)
    (hn : n ≤ c.recv.core.delivered.taken)
    (hbound : ∀ k ∈ c.recv.core.delivered.held, k < n + cfg.receiveCapacity)
    (hturn : ∀ k, turn.sinkAccepts k = true) (hseg : InWindow cfg base S n seg) :
    ∃ c', c.onSegment cfg turn seg = .ok c' ∧ Receiving cfg base S c' ∧
      c'.recv.core.delivered.held = c.recv.core.delivered.held ∪
        if c.Overtaken seg then ∅ else carried base n seg := by
  obtain ⟨hsyn, hrst, hfin, hfits, hpiece⟩ := hseg
  obtain ⟨c', hok, hreceived⟩ := onSegment_spec h.live turn seg
  refine ⟨c', hok, ?_⟩
  cases hreceived with
  | ended _ _ reason =>
      rcases reason with hreset | hpeer
      · exact absurd (hrst.symm.trans hreset) Bool.false_ne_true
      · exact absurd (h.peerFin.symm.trans hpeer) Bool.false_ne_true
  | handshake _ _ start => exact absurd start.1 (not_synSent_of_isOpen h.isOpen)
  | idle live _ context stays reason =>
      have hcore : c'.recv.core = c.recv.core := congrArg Context.recv context
      obtain hsyn' | (hover : c.Overtaken seg) := reason h.isOpen
      · exact absurd (hsyn.symm.trans hsyn') Bool.false_ne_true
      have hopen : c'.state.isOpen = true :=
        live.isOpen fun hs => not_synSent_of_isOpen h.isOpen (stays hs)
      refine ⟨⟨live, hopen, (congrArg ReceiveCore.peerFin hcore).trans h.peerFin,
        (congrArg (fun recv => recv.sink.writable) hcore).trans h.writable,
        (congrArg ReceiveCore.receiveBackpressured hcore).trans h.flowing, ?_, ?_⟩, ?_⟩
      · rw [hcore]
        exact h.assembled
      · rw [hcore]
        exact h.allWritten
      · rw [hcore, if_pos hover, Set.union_empty]
  | @data c₁ live _ context isOpen reason _ =>
      have hcore : c₁.recv.core = c.recv.core := congrArg Context.recv context
      have hcurrent : ¬c.Overtaken seg := fun hover => hover.2 (reason hover.1)
      have hpeer : c₁.recv.peerFin = false :=
        (congrArg ReceiveCore.peerFin hcore).trans h.peerFin
      have hassembled : Assembled cfg base S c₁.recv.core.delivered := hcore ▸ h.assembled
      have hcap := receiveCapacity_le cfg
      have htop : c₁.recv.core.delivered.taken ≤ n + cfg.receiveCapacity := by
        rw [hcore]
        by_contra hlt
        exact Nat.lt_irrefl _ (hbound (n + cfg.receiveCapacity) (.inl (by omega)))
      have hfrom : n ≤ c₁.recv.core.delivered.taken := hcore ▸ hn
      have hat : n ≤ place base n seg := Nat.le_add_right _ _
      have hnum : seg.seqNum = position base (place base n seg) := (position_place base n seg).symm
      have hpn : place base n seg - c₁.recv.core.delivered.taken < 2 ^ 31 := by omega
      have hnp : c₁.recv.core.delivered.taken - place base n seg < 2 ^ 31 := by omega
      have hhandled := handleData_spec live isOpen turn seg
      rw [receiveData_of_noFin cfg turn c₁.recv hfin] at hhandled
      obtain ⟨hpeer', hwritable', hback'⟩ :=
        receivePayload_open cfg turn c₁.recv seg.seqNum seg.payload hturn
      have hheld : (receivePayload cfg turn c₁.recv seg.seqNum seg.payload).1.core.delivered.held =
          c₁.recv.core.delivered.held ∪ carried base n seg :=
        receivePayload_held hassembled hpeer
          ((congrArg ReceiveCore.receiveBackpressured hcore).trans h.flowing) hnum hpn hnp
          seg.payload_fits (by omega)
      have hassembled' := (receivePayload_assembled turn hassembled hnum hpn hnp
        seg.payload_fits hpiece).1
      have hwritten' : AllWritten
          (receivePayload cfg turn c₁.recv seg.seqNum seg.payload).1.core.delivered :=
        receivePayload_allWritten cfg turn
          (fun _ => (congrArg (fun recv => recv.sink.writable) hcore).trans h.writable)
          (hcore ▸ h.allWritten)
      generalize (receivePayload cfg turn c₁.recv seg.seqNum seg.payload).1 = recv'
        at hhandled hpeer' hwritable' hback' hheld hassembled' hwritten'
      have hcore' := hhandled.core
      obtain ⟨-, hover⟩ | ⟨hlive', -, -⟩ := hhandled.outcome
      · exact absurd ((hpeer'.trans hpeer).symm.trans hover) Bool.false_ne_true
      refine ⟨⟨hlive', hlive'.isOpen fun hs => not_synSent_of_isOpen isOpen (hhandled.stays hs),
        ?_, ?_, ?_, ?_, ?_⟩, ?_⟩
      · exact ((congrArg ReceiveCore.peerFin hcore').trans hpeer').trans hpeer
      · exact ((congrArg (fun recv => recv.sink.writable) hcore').trans hwritable').trans
          ((congrArg (fun recv => recv.sink.writable) hcore).trans h.writable)
      · exact ((congrArg ReceiveCore.receiveBackpressured hcore').trans hback').trans
          ((congrArg ReceiveCore.receiveBackpressured hcore).trans h.flowing)
      · rw [hcore']
        exact hassembled'
      · rw [hcore']
        exact hwritten'
      · rw [hcore', hheld, hcore, if_neg hcurrent]

/-- The events of a list of arriving segments, with nothing in between. -/
def arrivalEvents (arrivals : List (Turn × VMSegment)) : List (Turn × Event) :=
  arrivals.map fun arrival => (arrival.1, .segment arrival.2)

/-- A list of segments inside the window adds the places of those that are not
overtaken. -/
theorem Receiving.arrivals {n : ℕ} {arrivals : List (Turn × VMSegment)}
    (h : Receiving cfg base S c) (hn : n ≤ c.recv.core.delivered.taken)
    (hbound : ∀ k ∈ c.recv.core.delivered.held, k < n + cfg.receiveCapacity)
    (hturns : ∀ arrival ∈ arrivals, ∀ k, arrival.1.sinkAccepts k = true)
    (hsegs : ∀ arrival ∈ arrivals, InWindow cfg base S n arrival.2) :
    ∃ c', Run (Step cfg) c (arrivalEvents arrivals) c' ∧ Receiving cfg base S c' ∧
      c'.recv.core.delivered.held =
        c.recv.core.delivered.held ∪ filled (carried base n) (c.kept cfg arrivals) := by
  induction arrivals generalizing c with
  | nil => exact ⟨c, .nil c, h, by simp [kept]⟩
  | cons arrival rest ih =>
      obtain ⟨turn, seg⟩ := arrival
      have hseg := hsegs _ (List.mem_cons_self ..)
      obtain ⟨c₁, hok, h₁, hheld₁⟩ :=
        h.segment hn hbound (hturns _ (List.mem_cons_self ..)) hseg
      have hadded : ∀ k ∈ c₁.recv.core.delivered.held, k < n + cfg.receiveCapacity := by
        rw [hheld₁]
        rintro k (hk | hk)
        · exact hbound k hk
        · split at hk
          · cases hk
          · have := (Set.mem_Ico.mp hk).2
            have := hseg.2.2.2.1
            omega
      have hmono : n ≤ c₁.recv.core.delivered.taken :=
        Nat.le_trans hn (h.assembled.frontier.mono h₁.assembled.frontier
          (by rw [hheld₁]; exact Set.subset_union_left))
      obtain ⟨c', hrun, h', hheld'⟩ := ih h₁ hmono hadded
        (fun arrival hmem => hturns arrival (List.mem_cons_of_mem _ hmem))
        fun arrival hmem => hsegs arrival (List.mem_cons_of_mem _ hmem)
      refine ⟨c', .cons ⟨⟨h.live.registered, trivial⟩, hok⟩ hrun, h', ?_⟩
      rw [hheld', hheld₁]
      simp only [kept, hok]
      by_cases hover : c.Overtaken seg
      · rw [if_pos hover, if_pos hover, Set.union_empty]
      · rw [if_neg hover, if_neg hover, filled_cons, Set.union_assoc]

/-- Every segment that is kept has arrived. -/
theorem kept_subset (cfg : Settings) (c : Conn) (arrivals : List (Turn × VMSegment)) :
    c.kept cfg arrivals ⊆ arrivals.map Prod.snd := by
  induction arrivals generalizing c with
  | nil => simp [kept]
  | cons arrival rest ih =>
      have hlater : (match c.onSegment cfg arrival.1 arrival.2 with
          | .ok c => c.kept cfg rest
          | .error _ => []) ⊆ rest.map Prod.snd := by
        split
        · exact ih _
        · simp
      simp only [kept, List.map_cons]
      split
      · exact List.subset_cons_of_subset _ hlater
      · exact List.cons_subset_cons _ hlater

/-- What is missing below `e` after the arrivals decides whether `vmSeq` gets
there. -/
theorem Receiving.complete_iff {n e : ℕ} {arrivals : List (Turn × VMSegment)}
    (h : Receiving cfg base S c) (hn : c.recv.core.delivered.taken = n)
    (hturns : ∀ arrival ∈ arrivals, ∀ k, arrival.1.sinkAccepts k = true)
    (hsegs : ∀ arrival ∈ arrivals, InWindow cfg base S n arrival.2)
    (hend : Frontier (c.recv.core.delivered.held ∪
      filled (carried base n) (arrivals.map Prod.snd)) e) :
    ∃ c', Run (Step cfg) c (arrivalEvents arrivals) c' ∧
      (c'.recv.vmSeq = position base e ∧ c'.recv.sink.written.flatten = S.take e ↔
        ∀ k < e, k ∈ c.recv.core.delivered.held ∪
          filled (carried base n) (c.kept cfg arrivals)) := by
  have hcap := receiveCapacity_le cfg
  have hbound : ∀ k ∈ c.recv.core.delivered.held, k < n + cfg.receiveCapacity := by
    rintro k (hk | ⟨j, b, rfl, hb⟩)
    · have := Nat.lt_of_lt_of_eq hk hn
      omega
    · have := (h.assembled.sound.buffered.holds_bound hb).2
      omega
  obtain ⟨c', hrun, h', hheld⟩ := h.arrivals (Nat.le_of_eq hn.symm) hbound hturns hsegs
  refine ⟨c', hrun, ?_⟩
  have hfrontier := h'.assembled.frontier
  rw [hheld] at hfrontier
  have hsub := Set.union_subset_union_right c.recv.core.delivered.held
    (filled_mono (carried base n) (kept_subset cfg c arrivals))
  rw [← hfrontier.eq_iff hend hsub]
  have htaken : c'.recv.core.delivered.taken = c'.recv.accepted.length :=
    Assembled.taken_of_open h'.peerFin
  constructor
  · rintro ⟨hseq, -⟩
    have hle := hfrontier.mono hend hsub
    have hfrom : n ≤ c'.recv.core.delivered.taken :=
      hn ▸ h.assembled.frontier.mono hfrontier Set.subset_union_left
    have htop : e ≤ n + cfg.receiveCapacity := by
      by_contra hlt
      rcases hend.below (n + cfg.receiveCapacity) (by omega) with hk | ⟨seg, hmem, hk⟩
      · exact Nat.lt_irrefl _ (hbound _ hk)
      · obtain ⟨arrival, harrival, rfl⟩ := List.mem_map.mp hmem
        have := (Set.mem_Ico.mp hk).2
        have := (hsegs arrival harrival).2.2.2.1
        omega
    exact (position_inj (by omega) (by omega)).mp (h'.assembled.vmSeq.symm.trans hseq)
  · intro heq
    refine ⟨h'.assembled.vmSeq.trans (by rw [heq]), ?_⟩
    rw [← heq, htaken]
    exact h'.allWritten.trans h'.assembled.accepted_eq

/-- A connection that has been fed pieces of `S` gets all of a contiguous range
from a list of segments, in whatever order and however often they come, if and
only if every byte of the range is held already or arrives at least once in a
segment that is not overtaken. -/
theorem arrivals_complete_iff {c₀ : Conn} {labels : List (Turn × Event)} {e : ℕ}
    {arrivals : List (Turn × VMSegment)} (h : Reachable cfg c₀) (huntouched : c₀.Untouched)
    (hrun : Run (Restrict (Step cfg) (Feeds c₀.recv.vmSeq S)) c₀ labels c)
    (hregistered : c.registered = true) (hopen : c.state.isOpen = true)
    (hpeer : c.recv.peerFin = false) (hsink : c.recv.sink.writable = true)
    (hflowing : c.recv.receiveBackpressured = false)
    (hturns : ∀ arrival ∈ arrivals, ∀ k, arrival.1.sinkAccepts k = true)
    (hsegs : ∀ arrival ∈ arrivals,
      InWindow cfg c₀.recv.vmSeq S c.recv.core.delivered.taken arrival.2)
    (hend : Frontier (c.recv.core.delivered.held ∪
      filled (carried c₀.recv.vmSeq c.recv.core.delivered.taken) (arrivals.map Prod.snd)) e) :
    ∃ c', Run (Step cfg) c (arrivalEvents arrivals) c' ∧
      (c'.recv.vmSeq = position c₀.recv.vmSeq e ∧
          c'.recv.sink.written.flatten = S.take e ↔
        ∀ k < e, k ∈ c.recv.core.delivered.held ∪
          filled (carried c₀.recv.vmSeq c.recv.core.delivered.taken) (c.kept cfg arrivals)) := by
  obtain ⟨hinv, hassembled, hwritten⟩ := huntouched.fed h hrun
  have hlive : Live cfg c := (hinv hregistered).resolve_right fun hfinished => by
    rw [hfinished.state] at hopen
    cases hopen
  exact Receiving.complete_iff ⟨hlive, hopen, hpeer, hsink, hflowing, hassembled, hwritten⟩ rfl
    hturns hsegs hend

/-- Two segments, the second one first, with nothing acknowledged in between. -/
def swappedArrivals : List (Turn × VMSegment) :=
  [({}, { seqNum := 101#32, ackNum := 8#32, ack := true, payload := [2] }),
    ({}, { seqNum := 100#32, ackNum := 8#32, ack := true, payload := [1] })]

theorem filled_swappedArrivals : filled (carried exampleOutbound.recv.vmSeq 0)
    (swappedArrivals.map Prod.snd) = Set.Ico 1 2 ∪ (Set.Ico 0 1 ∪ ∅) := by
  simp only [swappedArrivals, List.map_cons, List.map_nil, filled_cons, filled_nil]
  rfl

/-- None of them is overtaken, and both bytes are written. -/
theorem arrivals_complete_iff_swapped :
    ∃ c c' : Conn, Run (Step {}) c (arrivalEvents swappedArrivals) c' ∧
      c'.recv.vmSeq = position 100#32 2 ∧ c'.recv.sink.written.flatten = [1, 2] := by
  obtain ⟨c, hrun, hc⟩ := exists_restricted_run {} FeedsExample exampleOutbound
    [({}, .segment { seqNum := 100#32, ackNum := 8#32, ack := true })]
    (fun c => c.registered && c.state.isOpen && c.recv.sink.writable &&
      !c.recv.receiveBackpressured && c.recv.core.delivered =
        { vmSeq := 100#32, peerFin := false, written := [], accepted := [] } &&
      decide ((c.kept {} swappedArrivals).length = 2)) (by decide +kernel)
  simp only [Bool.and_eq_true, decide_eq_true_eq, Bool.not_eq_true'] at hc
  obtain ⟨⟨⟨⟨⟨hreg, hopen⟩, hsink⟩, hflowing⟩, hdelivered⟩, hkept⟩ := hc
  have hfed := hrun.mono fun _ _ _ (hs : Restrict _ _ _ _ _) =>
    (⟨FeedsExample.feeds hs.1, hs.2⟩ : Restrict _ _ _ _ _)
  have htaken : c.recv.core.delivered.taken = 0 := by
    rw [hdelivered]
    rfl
  have hheld : c.recv.core.delivered.held = ∅ := by
    rw [hdelivered]
    refine Set.eq_empty_iff_forall_notMem.mpr fun k hk => ?_
    rcases hk with hk | ⟨j, b, -, e, he, -⟩
    · exact Nat.not_lt_zero k hk
    · cases he
  have hend : Frontier (c.recv.core.delivered.held ∪ filled
      (carried exampleOutbound.recv.vmSeq c.recv.core.delivered.taken)
      (swappedArrivals.map Prod.snd)) 2 := by
    rw [htaken, hheld, filled_swappedArrivals]
    refine ⟨fun k hk => ?_, by simp⟩
    simp only [Set.empty_union, Set.union_empty, Set.mem_union, Set.mem_Ico]
    omega
  have hturns : ∀ arrival ∈ swappedArrivals, ∀ k, arrival.1.sinkAccepts k = true := by
    simp [swappedArrivals]
  have hsegs : ∀ arrival ∈ swappedArrivals, InWindow {} exampleOutbound.recv.vmSeq [1, 2, 3, 4]
      c.recv.core.delivered.taken arrival.2 := by
    rw [htaken]
    simp only [swappedArrivals, List.forall_mem_cons]
    exact ⟨⟨rfl, rfl, rfl, by decide, by decide⟩, ⟨rfl, rfl, rfl, by decide, by decide⟩, nofun⟩
  obtain ⟨c', hrun', hiff⟩ := arrivals_complete_iff
    ⟨exampleOutbound, opened_exampleOutbound, .refl _⟩ rfl hfed hreg hopen
    (congrArg Delivered.peerFin hdelivered) hsink hflowing hturns hsegs hend
  have hall : c.kept {} swappedArrivals = swappedArrivals.map Prod.snd :=
    (kept_sublist {} swappedArrivals c).eq_of_length hkept
  exact ⟨c, c', hrun', hiff.mpr fun k hk => hall ▸ hend.below k hk⟩

/-- Two segments of a byte each, the second one acknowledging a byte of the
relay: the order decides whether the first one is taken. -/
theorem overtaken_segment_discarded :
    (∃ c : Conn, Run (Step {}) exampleOutbound
        [({}, .segment { seqNum := 100#32, ackNum := 8#32, ack := true, window := 1000#16 }),
          ({}, .sourceData [9]),
          ({}, .segment
            { seqNum := 100#32, ackNum := 8#32, ack := true, window := 1000#16, payload := [1] }),
          ({}, .segment
            { seqNum := 101#32, ackNum := 9#32, ack := true, window := 1000#16, payload := [2] })]
        c ∧ c.Current ∧ c.recv.vmSeq = 102#32 ∧ c.recv.sink.written = [[1], [2]]) ∧
      ∃ c : Conn, Run (Step {}) exampleOutbound
        [({}, .segment { seqNum := 100#32, ackNum := 8#32, ack := true, window := 1000#16 }),
          ({}, .sourceData [9]),
          ({}, .segment
            { seqNum := 101#32, ackNum := 9#32, ack := true, window := 1000#16, payload := [2] }),
          ({}, .segment
            { seqNum := 100#32, ackNum := 8#32, ack := true, window := 1000#16, payload := [1] })]
        c ∧ c.Current ∧ c.recv.vmSeq = 100#32 ∧ c.recv.sink.written = [] := by
  constructor
  · obtain ⟨c, hrun, hc⟩ := exists_run {} exampleOutbound
      [({}, .segment { seqNum := 100#32, ackNum := 8#32, ack := true, window := 1000#16 }),
        ({}, .sourceData [9]),
        ({}, .segment
          { seqNum := 100#32, ackNum := 8#32, ack := true, window := 1000#16, payload := [1] }),
        ({}, .segment
          { seqNum := 101#32, ackNum := 9#32, ack := true, window := 1000#16, payload := [2] })]
      (fun c => c.registered && c.state ≠ .closed && c.recv.vmSeq = 102#32 &&
        c.recv.sink.written = [[1], [2]]) (by decide +kernel)
    simp only [Bool.and_eq_true, decide_eq_true_eq] at hc
    obtain ⟨⟨⟨hreg, hstate⟩, hseq⟩, hwritten⟩ := hc
    exact ⟨c, hrun, ⟨hreg, hstate⟩, hseq, hwritten⟩
  · obtain ⟨c, hrun, hc⟩ := exists_run {} exampleOutbound
      [({}, .segment { seqNum := 100#32, ackNum := 8#32, ack := true, window := 1000#16 }),
        ({}, .sourceData [9]),
        ({}, .segment
          { seqNum := 101#32, ackNum := 9#32, ack := true, window := 1000#16, payload := [2] }),
        ({}, .segment
          { seqNum := 100#32, ackNum := 8#32, ack := true, window := 1000#16, payload := [1] })]
      (fun c => c.registered && c.state ≠ .closed && c.recv.vmSeq = 100#32 &&
        c.recv.sink.written = []) (by decide +kernel)
    simp only [Bool.and_eq_true, decide_eq_true_eq] at hc
    obtain ⟨⟨⟨hreg, hstate⟩, hseq⟩, hwritten⟩ := hc
    exact ⟨c, hrun, ⟨hreg, hstate⟩, hseq, hwritten⟩

end Conn

end RootlessRelay
