import RootlessRelay.Tcp.Header
import RootlessRelay.Tcp.Runs

/-!
# Segmentation

`sendTCP` with its buffers: every turn of the loop fills in a segment, advances
`relaySeq`, builds a packet and hands it to `sendIPToVM`, and any of the writes
may throw. Where the first segment fits, all of them do, the loop does what
`sendTCP` of the connection record does, and the packets carry the payload
faithfully; otherwise nothing is sent.

`Segmented` is the list of segments a payload is cut into, over a function that
makes a segment of a number, a chunk and flags. Both loops run through the same
list (`sendTCPLoop_segmented`, `emitTCPLoop_segmented`), so that all which is
proved of the shorter model holds of the bytes, and the packets are read back by
the parser of the receiving side.
-/

namespace RootlessRelay

open OnesComplement

/-- What the loop of `sendTCP` has done: the connection, the segments it returns
and the packets handed to `sendIPToVM`. -/
structure Emission where
  conn : Conn
  segments : List SentSegment
  packets : List Bytes

/-- An exception inside the loop, with what had been sent and advanced before
it. -/
structure Interrupted extends Emission where
  message : String

namespace Conn

variable (cfg : Settings) (identification : Nat → Fin 65535)

/-- The loop of `sendTCP`, with the packets it hands over. The fuel bounds the
number of turns. -/
def emitTCPLoop (mss : Nat) (flags : Flags) (advance : Bool) :
    Nat → Conn → Seq → Bool → Bytes → List SentSegment → List Bytes →
      Except Interrupted Emission
  | 0, conn, _, _, _, segments, packets => .ok { conn, segments, packets }
  | fuel + 1, c, sequence, isFirst, rest, segments, packets =>
    let chunk := rest.take mss
    let rest := rest.drop mss
    let isLastSegment := rest.isEmpty
    let segmentFlags := { flags with
      psh := flags.psh && isLastSegment
      fin := flags.fin && isLastSegment
      syn := flags.syn && isFirst }
    let wire := c.wire cfg sequence chunk segmentFlags
    match wire.tcp with
    | .error message => .error { conn := c, segments, packets, message }
    | .ok tcp =>
      let sent := c.sendChunk cfg sequence chunk segmentFlags advance
      let segments := segments ++ sent.2.toList
      match wire.toIP tcp (identification c.sent.length) with
      -- `relaySeq` has moved on, but the packet is not out.
      | .error message =>
        .error { conn := { sent.1 with sent := c.sent }, segments, packets, message }
      | .ok ip =>
        let packets := packets ++ [ip]
        if isLastSegment then .ok { conn := sent.1, segments, packets }
        else
          let sequence := match sent.2 with
            | some _ => sequence + BitVec.ofNat 32 (sequenceLength chunk segmentFlags)
            | none => sequence
          emitTCPLoop mss flags advance fuel sent.1 sequence false rest segments packets

/-- `sendTCP` with its buffers, from `relaySeq` or from the number it is given. -/
def emitTCP (c : Conn) (payload : Bytes) (flags : Flags) (sequence : Option Seq)
    (advance : Bool) : Except Interrupted Emission :=
  emitTCPLoop cfg identification (c.tcpMss cfg) flags advance (payload.length + 1) c
    (sequence.getD c.send.relaySeq) true payload [] []

end Conn

/-- The record kept of a segment that occupies sequence space. A reset is never
recorded. -/
def WireSegment.tracked (wire : WireSegment) : Option SentSegment :=
  if decide (sequenceLength wire.payload wire.flags > 0) && !wire.flags.rst then
    some { seq := wire.sequence, payload := wire.payload, flags := wire.flags }
  else none

/-- The sequence numbers some records take together. -/
def totalLength : List SentSegment → Nat
  | [] => 0
  | segment :: rest => sequenceLength segment.payload segment.flags + totalLength rest

/-- `relaySeq` after `segments` have been sent from `sequence` on. -/
def relaySeqAfter (relaySeq : Seq) (advance : Bool) (sequence : Seq)
    (segments : List SentSegment) : Seq :=
  if advance && !segments.isEmpty then sequence + BitVec.ofNat 32 (totalLength segments)
  else relaySeq

/-- The flags of a segment before the last: PSH and FIN wait for it, and SYN
goes with the first. -/
def Flags.within (flags : Flags) (isFirst : Bool) : Flags :=
  { flags with psh := false, fin := false, syn := flags.syn && isFirst }

/-- The flags of the last segment, which keeps everything but a SYN that has
gone before. -/
def Flags.closing (flags : Flags) (isFirst : Bool) : Flags :=
  { flags with syn := flags.syn && isFirst }

/-- The segments the rest of a payload is cut into, `wire` being what the
connection makes of a sequence number, a chunk and its flags. -/
inductive Segmented (wire : Seq → Bytes → Flags → WireSegment) (mss : Nat) (flags : Flags) :
    Seq → Bool → Bytes → List WireSegment → Prop
  | last {sequence : Seq} {isFirst : Bool} {rest : Bytes} : rest.length ≤ mss →
      Segmented wire mss flags sequence isFirst rest
        [wire sequence rest (flags.closing isFirst)]
  | more {sequence : Seq} {isFirst : Bool} {rest : Bytes} {wires : List WireSegment} :
      mss < rest.length →
      Segmented wire mss flags
        (sequence + BitVec.ofNat 32 (mss + (flags.syn && isFirst).toNat)) false (rest.drop mss)
        wires →
      Segmented wire mss flags sequence isFirst rest
        (wire sequence (rest.take mss) (flags.within isFirst) :: wires)

namespace Conn

variable {cfg : Settings} {identification : Nat → Fin 65535} {mss : Nat} {flags : Flags}
  {advance : Bool} {fuel : Nat} {c : Conn} {sequence : Seq} {isFirst : Bool} {rest : Bytes}
  {segments : List SentSegment} {packets : List Bytes} {wires : List WireSegment}

/-- One turn of `sendTCP` in terms of the segment it makes. -/
theorem sendChunk_eq (cfg : Settings) (c : Conn) (sequence : Seq) (chunk : Bytes) (flags : Flags)
    (advance : Bool) :
    c.sendChunk cfg sequence chunk flags advance =
      ({ c with
          sent := c.sent ++ [c.wire cfg sequence chunk flags]
          send := { c.send with
            relaySeq := relaySeqAfter c.send.relaySeq advance sequence
              (c.wire cfg sequence chunk flags).tracked.toList } },
        (c.wire cfg sequence chunk flags).tracked) := by
  have htracked : (c.sendChunk cfg sequence chunk flags advance).2 =
      (c.wire cfg sequence chunk flags).tracked := rfl
  refine Prod.ext ?_ htracked
  unfold sendChunk relaySeqAfter WireSegment.tracked wire
  dsimp only
  cases decide (sequenceLength chunk flags > 0) && !flags.rst <;> cases advance <;>
    simp [totalLength]

/-- A segment with payload is recorded unless it is a reset. -/
theorem wire_tracked {chunk : Bytes} (hchunk : chunk ≠ []) (hrst : flags.rst = false) :
    (c.wire cfg sequence chunk flags).tracked =
      some { seq := sequence, payload := chunk, flags } := by
  have hpos : 0 < sequenceLength chunk flags := by
    unfold sequenceLength
    have := List.length_pos_of_ne_nil hchunk
    omega
  unfold WireSegment.tracked wire
  rw [if_pos (by simp [hpos, hrst])]

/-- The turn of the loop that sends what is left. -/
theorem sendTCPLoop_last (hlast : rest.length ≤ mss) :
    sendTCPLoop cfg mss flags advance (fuel + 1) c sequence isFirst rest segments =
      ((c.sendChunk cfg sequence rest (flags.closing isFirst) advance).1,
        segments ++ (c.sendChunk cfg sequence rest (flags.closing isFirst) advance).2.toList) := by
  simp [sendTCPLoop, Flags.closing, List.take_of_length_le hlast, List.drop_of_length_le hlast]

/-- A turn of the loop with more to come. -/
theorem sendTCPLoop_more (hmss : 0 < mss) (hmore : mss < rest.length) (hrst : flags.rst = false) :
    sendTCPLoop cfg mss flags advance (fuel + 1) c sequence isFirst rest segments =
      sendTCPLoop cfg mss flags advance fuel
        (c.sendChunk cfg sequence (rest.take mss) (flags.within isFirst) advance).1
        (sequence + BitVec.ofNat 32 (mss + (flags.syn && isFirst).toNat)) false (rest.drop mss)
        (segments ++
          (c.sendChunk cfg sequence (rest.take mss) (flags.within isFirst) advance).2.toList) := by
  have hlength : (rest.take mss).length = mss := List.length_take_of_le hmore.le
  have hchunk : rest.take mss ≠ [] := List.ne_nil_of_length_pos (by omega)
  have hdrop : (rest.drop mss).isEmpty = false := by
    rw [List.isEmpty_eq_false_iff, ← List.length_pos_iff, List.length_drop]
    omega
  have hsecond := @wire_tracked cfg (flags.within isFirst) c sequence (rest.take mss) hchunk hrst
  have hflags : ({ flags with psh := false, fin := false, syn := flags.syn && isFirst } : Flags) =
      flags.within isFirst := rfl
  conv_lhs => unfold sendTCPLoop
  simp only [hdrop, Bool.and_false, hflags, sendChunk_eq, hsecond]
  rw [if_neg Bool.false_ne_true, sequenceLength, hlength]
  rfl

/-- `relaySeq` after the first segment and after the others is `relaySeq` after
all of them. -/
theorem relaySeqAfter_cons (relaySeq : Seq) (advance : Bool) (sequence : Seq)
    (first : SentSegment) (rest : List SentSegment) :
    relaySeqAfter (relaySeqAfter relaySeq advance sequence [first]) advance
        (sequence + BitVec.ofNat 32 (sequenceLength first.payload first.flags)) rest =
      relaySeqAfter relaySeq advance sequence (first :: rest) := by
  unfold relaySeqAfter
  cases advance with
  | false => rfl
  | true =>
      cases rest with
      | nil => rfl
      | cons second rest =>
          simp only [List.isEmpty_cons, Bool.not_false, Bool.and_self, if_true, totalLength,
            Nat.add_zero]
          rw [BitVec.ofNat_add, BitVec.ofNat_add, BitVec.ofNat_add, BitVec.add_assoc]

/-- What `sendTCP` of the connection record does, in terms of the segments it
cuts. -/
theorem sendTCPLoop_segmented (hmss : 0 < mss) (hrst : flags.rst = true → rest = [])
    (hfuel : rest.length < fuel) (c : Conn) (sequence : Seq) (isFirst : Bool)
    (segments : List SentSegment) :
    ∃ wires, Segmented (c.wire cfg) mss flags sequence isFirst rest wires ∧
      sendTCPLoop cfg mss flags advance fuel c sequence isFirst rest segments =
        ({ c with
            sent := c.sent ++ wires
            send := { c.send with
              relaySeq := relaySeqAfter c.send.relaySeq advance sequence
                (wires.filterMap WireSegment.tracked) } },
          segments ++ wires.filterMap WireSegment.tracked) := by
  induction fuel generalizing c sequence isFirst rest segments with
  | zero => exact absurd hfuel (Nat.not_lt_zero _)
  | succ fuel ih =>
      by_cases hlast : rest.length ≤ mss
      · refine ⟨_, .last hlast, ?_⟩
        rw [sendTCPLoop_last hlast, sendChunk_eq]
        cases htracked : (c.wire cfg sequence rest (flags.closing isFirst)).tracked <;>
          simp [htracked]
      · have hmore : mss < rest.length := Nat.lt_of_not_le hlast
        have hreset : flags.rst = false := by
          rw [← Bool.not_eq_true]
          intro ht
          rw [hrst ht] at hmore
          exact Nat.not_lt_zero _ hmore
        have hlength : (rest.take mss).length = mss := List.length_take_of_le hmore.le
        have hchunk : rest.take mss ≠ [] := List.ne_nil_of_length_pos (by omega)
        obtain ⟨wires, hwires, hloop⟩ := @ih (rest.drop mss)
          (fun ht => absurd ht (by simp [hreset])) (by rw [List.length_drop]; omega)
          (c.sendChunk cfg sequence (rest.take mss) (flags.within isFirst) advance).1
          (sequence + BitVec.ofNat 32 (mss + (flags.syn && isFirst).toNat)) false
          (segments ++
            (c.sendChunk cfg sequence (rest.take mss) (flags.within isFirst) advance).2.toList)
        refine ⟨_, .more hmore hwires, ?_⟩
        rw [sendTCPLoop_more hmss hmore hreset, hloop, sendChunk_eq]
        generalize hwire : c.wire cfg sequence (rest.take mss) _ = wire
        have hfirst : wire.tracked = some
            { seq := sequence, payload := rest.take mss, flags := flags.within isFirst } := by
          rw [← hwire]
          exact wire_tracked hchunk hreset
        have hseq := relaySeqAfter_cons c.send.relaySeq advance sequence
          { seq := sequence, payload := rest.take mss, flags := flags.within isFirst }
          (wires.filterMap WireSegment.tracked)
        rw [sequenceLength, hlength] at hseq
        rw [List.filterMap_cons, hfirst]
        dsimp only [Option.toList] at hseq ⊢
        rw [← hseq, List.append_assoc, List.append_assoc]
        rfl

/-- The turn of the loop that writes what is left. -/
theorem emitTCPLoop_last (hlast : rest.length ≤ mss) {ip : Bytes}
    (hpacket : (c.wire cfg sequence rest (flags.closing isFirst)).packet
      (identification c.sent.length) = .ok ip) :
    emitTCPLoop cfg identification mss flags advance (fuel + 1) c sequence isFirst rest segments
        packets =
      .ok {
        conn := (sendTCPLoop cfg mss flags advance (fuel + 1) c sequence isFirst rest segments).1
        segments :=
          (sendTCPLoop cfg mss flags advance (fuel + 1) c sequence isFirst rest segments).2
        packets := packets ++ [ip] } := by
  obtain ⟨tcp, htcp, hip⟩ := WireSegment.packet_eq_ok hpacket
  have hflags : ({ flags with
      psh := flags.psh && true, fin := flags.fin && true, syn := flags.syn && isFirst } : Flags) =
        flags.closing isFirst := by
    simp [Flags.closing]
  have hempty : (rest.drop mss).isEmpty = true := by
    rw [List.drop_of_length_le hlast]
    rfl
  unfold emitTCPLoop
  simp only [hempty, List.take_of_length_le hlast, hflags, htcp, hip, if_true]
  rw [sendTCPLoop_last hlast]

/-- A turn of the loop with more to come, where its packet can be written. -/
theorem emitTCPLoop_more (hmss : 0 < mss) (hmore : mss < rest.length) (hrst : flags.rst = false)
    {ip : Bytes} (hpacket : (c.wire cfg sequence (rest.take mss) (flags.within isFirst)).packet
      (identification c.sent.length) = .ok ip) :
    emitTCPLoop cfg identification mss flags advance (fuel + 1) c sequence isFirst rest segments
        packets =
      emitTCPLoop cfg identification mss flags advance fuel
        (c.sendChunk cfg sequence (rest.take mss) (flags.within isFirst) advance).1
        (sequence + BitVec.ofNat 32 (mss + (flags.syn && isFirst).toNat)) false (rest.drop mss)
        (segments ++
          (c.sendChunk cfg sequence (rest.take mss) (flags.within isFirst) advance).2.toList)
        (packets ++ [ip]) := by
  obtain ⟨tcp, htcp, hip⟩ := WireSegment.packet_eq_ok hpacket
  have hlength : (rest.take mss).length = mss := List.length_take_of_le hmore.le
  have hchunk : rest.take mss ≠ [] := List.ne_nil_of_length_pos (by omega)
  have hdrop : (rest.drop mss).isEmpty = false := by
    rw [List.isEmpty_eq_false_iff, ← List.length_pos_iff, List.length_drop]
    omega
  have hflags : ({ flags with psh := false, fin := false, syn := flags.syn && isFirst } : Flags) =
      flags.within isFirst := rfl
  have hsecond : (c.sendChunk cfg sequence (rest.take mss) (flags.within isFirst) advance).2 =
      some { seq := sequence, payload := rest.take mss, flags := flags.within isFirst } :=
    (congrArg Prod.snd (sendChunk_eq cfg c _ _ _ _)).trans (wire_tracked hchunk hrst)
  conv_lhs => unfold emitTCPLoop
  simp only [hdrop, Bool.and_false, hflags, htcp, hip, hsecond]
  rw [if_neg Bool.false_ne_true, sequenceLength, hlength]
  rfl

/-- Nothing is sent where the first segment cannot be written. -/
theorem emitTCPLoop_error
    (hunfit : ¬(c.wire cfg sequence (rest.take mss) { flags with
      psh := flags.psh && (rest.drop mss).isEmpty
      fin := flags.fin && (rest.drop mss).isEmpty
      syn := flags.syn && isFirst }).Fits) :
    ∃ thrown, emitTCPLoop cfg identification mss flags advance (fuel + 1) c sequence isFirst rest
      segments packets = .error thrown ∧ thrown.packets = packets := by
  unfold emitTCPLoop
  dsimp only
  generalize c.wire cfg sequence (rest.take mss) _ = first at hunfit ⊢
  cases htcp : first.tcp with
  | error message => exact ⟨_, rfl, rfl⟩
  | ok tcp =>
      cases hip : first.toIP tcp (identification c.sent.length) with
      | error message => exact ⟨_, by dsimp only; rw [hip], rfl⟩
      | ok ip =>
          have hpacket := WireSegment.packet_of htcp hip
          exact absurd ((WireSegment.packet_iff_fits first _).mp ⟨ip, hpacket⟩) hunfit

/-- Where every segment fits, the loop sends them all and does to the connection
what `sendTCP` does. -/
theorem emitTCPLoop_segmented {wire : Seq → Bytes → Flags → WireSegment} (hmss : 0 < mss)
    (hrst : flags.rst = true → rest = [])
    (hwires : Segmented wire mss flags sequence isFirst rest wires)
    (hfits : ∀ segment ∈ wires, segment.Fits) (hfuel : rest.length < fuel) (hc : c.wire cfg = wire)
    (segments : List SentSegment) (packets : List Bytes) :
    ∃ ips, emitTCPLoop cfg identification mss flags advance fuel c sequence isFirst rest segments
          packets =
        .ok {
          conn := (sendTCPLoop cfg mss flags advance fuel c sequence isFirst rest segments).1
          segments := (sendTCPLoop cfg mss flags advance fuel c sequence isFirst rest segments).2
          packets := packets ++ ips } ∧
      List.Forall₂ (fun segment ip => ∃ id, segment.packet id = .ok ip) wires ips := by
  obtain ⟨fuel, rfl⟩ := Nat.exists_eq_succ_of_ne_zero (Nat.ne_of_gt (Nat.zero_lt_of_lt hfuel))
  induction hwires generalizing c fuel segments packets with
  | last hlast =>
      obtain ⟨ip, hip⟩ := (WireSegment.packet_iff_fits _ (identification c.sent.length)).mpr
        (hfits _ List.mem_cons_self)
      refine ⟨[ip], emitTCPLoop_last hlast (hc ▸ hip), .cons ⟨_, hip⟩ .nil⟩
  | @more sequence isFirst rest wires hmore hrest ih =>
      have hreset : flags.rst = false := by
        rw [← Bool.not_eq_true]
        intro ht
        rw [hrst ht] at hmore
        exact Nat.not_lt_zero _ hmore
      obtain ⟨ip, hip⟩ := (WireSegment.packet_iff_fits _ (identification c.sent.length)).mpr
        (hfits _ List.mem_cons_self)
      have hleft : (rest.drop mss).length < fuel := by
        rw [List.length_drop]
        omega
      obtain ⟨fuel, rfl⟩ := Nat.exists_eq_succ_of_ne_zero
        (Nat.ne_of_gt (Nat.zero_lt_of_lt hleft))
      rw [emitTCPLoop_more hmss hmore hreset (hc ▸ hip), sendTCPLoop_more hmss hmore hreset]
      have hnext : (c.sendChunk cfg sequence (rest.take mss) (flags.within isFirst) advance).1.wire
          cfg = wire := hc
      obtain ⟨ips, hloop, hall⟩ := ih (fun ht => absurd ht (by simp [hreset]))
        (fun segment hmem => hfits segment (List.mem_cons_of_mem _ hmem)) hnext _ _ fuel hleft
      refine ⟨ip :: ips, hloop.trans ?_, .cons ⟨_, hip⟩ hall⟩
      rw [List.append_assoc]
      rfl

end Conn

namespace TCPSegment

/-- The sequence numbers a segment takes: its bytes, and one for each of SYN and
FIN. -/
def sequenceLength (segment : TCPSegment) : Nat :=
  segment.payload.length + segment.syn.toNat + segment.fin.toNat

/-- Each segment is numbered where the one before it ends. -/
def Consecutive : Seq → List TCPSegment → Prop
  | _, [] => True
  | sequence, segment :: rest =>
    segment.seqNum = sequence ∧
      Consecutive (sequence + BitVec.ofNat 32 segment.sequenceLength) rest

/-- The record of a segment that takes sequence numbers, as read from a packet.
A reset takes none. -/
def recorded (windowSize : Option Nat) (segment : TCPSegment) : Option SentSegment :=
  if decide (segment.sequenceLength > 0) && !segment.rst then
    some {
      seq := segment.seqNum
      payload := segment.payload
      flags := {
        syn := segment.syn, fin := segment.fin, rst := segment.rst, psh := segment.psh
        ack := segment.ack, windowSize } }
  else none

end TCPSegment

/-- The first segment of a payload can be written: ports, window and, with a
SYN, the length fit their fields. -/
structure Conn.Sendable (cfg : Settings) (c : Conn) (payload : Bytes) (flags : Flags) : Prop where
  srcPort : c.tx.srcPort ≤ 0xffff
  dstPort : 0 ≤ c.tx.dstPort ∧ c.tx.dstPort ≤ 0xffff
  window : flags.windowSize.getD (c.tcpReceiveWindow cfg) ≤ 0xffff
  syn : flags.syn = true → 44 + min payload.length (c.tcpMss cfg) ≤ 0xffff

/-- The packets of an emission, read as `segments`, carry a payload from
`sequence` on. -/
structure Carries (cfg : Settings) (c : Conn) (payload : Bytes) (flags : Flags) (sequence : Seq)
    (advance : Bool) (e : Emission) (segments : List TCPSegment) : Prop where
  reads : List.Forall₂ ReadsAs e.packets segments
  nonempty : segments ≠ []
  payload : segments.flatMap TCPSegment.payload = payload
  chunk : ∀ segment ∈ segments, segment.payload.length ≤ c.tcpMss cfg
  consecutive : TCPSegment.Consecutive sequence segments
  syn : ∀ i segment, segments[i]? = some segment → segment.syn = (flags.syn && decide (i = 0))
  last : ∀ i segment, segments[i]? = some segment →
    segment.psh = (flags.psh && decide (i + 1 = segments.length)) ∧
      segment.fin = (flags.fin && decide (i + 1 = segments.length))
  control : ∀ segment ∈ segments, segment.ack = flags.ack ∧ segment.rst = flags.rst
  ackNum : ∀ segment ∈ segments, segment.ackNum = c.recv.vmSeq
  window : ∀ segment ∈ segments,
    segment.window = flags.windowSize.getD (c.tcpReceiveWindow cfg)
  flow : ∀ segment ∈ segments,
    segment.srcPort = c.tx.srcPort ∧ (segment.dstPort : Int) = c.tx.dstPort ∧
      segment.srcIP = dotted c.tx.srcIP ∧ segment.dstIP = dotted c.tx.dstIP
  mtu : List.Forall₂ (fun ip segment => segment.syn = false → List.length ip ≤ cfg.vmMtu) e.packets
    segments
  returned : e.segments = segments.filterMap (TCPSegment.recorded flags.windowSize)
  advanced : advance = true → flags.rst = false → e.segments ≠ [] →
    e.conn.send.relaySeq = sequence + BitVec.ofNat 32 (totalLength e.segments)
  kept : advance = false ∨ flags.rst = true ∨ e.segments = [] →
    e.conn.send.relaySeq = c.send.relaySeq
  frame : ∃ wires, e.conn = { c with
    sent := c.sent ++ wires, send := { c.send with relaySeq := e.conn.send.relaySeq } }

namespace Segmented

variable {cfg : Settings} {c : Conn} {mss : Nat} {flags : Flags} {sequence : Seq} {isFirst : Bool}
  {rest : Bytes} {wires : List WireSegment}

/-- Every segment is made of a chunk under the flags of the payload. -/
theorem made (h : Segmented (c.wire cfg) mss flags sequence isFirst rest wires) :
    ∀ wire ∈ wires, ∃ sequence chunk segmentFlags, wire = c.wire cfg sequence chunk segmentFlags ∧
      chunk.length ≤ mss ∧ segmentFlags.ack = flags.ack ∧ segmentFlags.rst = flags.rst ∧
      segmentFlags.windowSize = flags.windowSize ∧
      (segmentFlags.syn = true →
        flags.syn = true ∧ isFirst = true ∧ chunk.length = min rest.length mss) := by
  induction h with
  | last hlast =>
      intro wire hmem
      rw [List.mem_singleton.mp hmem]
      refine ⟨_, _, _, rfl, hlast, rfl, rfl, rfl, fun hsyn => ?_⟩
      obtain ⟨hflag, hfirst⟩ := Bool.and_eq_true_iff.mp hsyn
      exact ⟨hflag, hfirst, (Nat.min_eq_left hlast).symm⟩
  | more hmore hrest ih =>
      intro wire hmem
      rcases List.mem_cons.mp hmem with rfl | hmem
      · refine ⟨_, _, _, rfl, List.length_take_le _ _, rfl, rfl, rfl, fun hsyn => ?_⟩
        obtain ⟨hflag, hfirst⟩ := Bool.and_eq_true_iff.mp hsyn
        exact ⟨hflag, hfirst, by rw [List.length_take, Nat.min_comm]⟩
      · obtain ⟨_, chunk, segmentFlags, rfl, hle, hack, hrst, hwindow, hsyn⟩ := ih wire hmem
        exact ⟨_, chunk, segmentFlags, rfl, hle, hack, hrst, hwindow,
          fun ht => absurd (hsyn ht).2.1 Bool.false_ne_true⟩

theorem ne_nil (h : Segmented (c.wire cfg) mss flags sequence isFirst rest wires) : wires ≠ [] := by
  cases h <;> exact List.cons_ne_nil _ _

theorem payload (h : Segmented (c.wire cfg) mss flags sequence isFirst rest wires) :
    (wires.map WireSegment.read).flatMap TCPSegment.payload = rest := by
  induction h with
  | last hlast => exact List.append_nil _
  | more hmore hrest ih =>
      rw [List.map_cons, List.flatMap_cons, ih]
      exact List.take_append_drop _ _

theorem consecutive (h : Segmented (c.wire cfg) mss flags sequence isFirst rest wires) :
    TCPSegment.Consecutive sequence (wires.map WireSegment.read) := by
  induction h with
  | last hlast => exact ⟨rfl, trivial⟩
  | @more sequence isFirst rest wires hmore hrest ih =>
      have hlength : (c.wire cfg sequence (rest.take mss)
          (flags.within isFirst)).read.sequenceLength = mss + (flags.syn && isFirst).toNat := by
        change (rest.take mss).length + (flags.syn && isFirst).toNat + 0 = _
        rw [List.length_take_of_le hmore.le, Nat.add_zero]
      refine ⟨rfl, ?_⟩
      rw [hlength]
      exact ih

/-- Only the first segment of a payload has its SYN. -/
theorem syn (h : Segmented (c.wire cfg) mss flags sequence isFirst rest wires) (i : Nat)
    {segment : TCPSegment} (hi : (wires.map WireSegment.read)[i]? = some segment) :
    segment.syn = (flags.syn && isFirst && decide (i = 0)) := by
  induction h generalizing i with
  | last hlast =>
      cases i with
      | zero =>
          obtain rfl := Option.some.inj hi
          simp [WireSegment.read, Conn.wire, Flags.closing]
      | succ i => cases hi
  | more hmore hrest ih =>
      cases i with
      | zero =>
          obtain rfl := Option.some.inj hi
          simp [WireSegment.read, Conn.wire, Flags.within]
      | succ i =>
          rw [ih i hi]
          simp

/-- Only the last segment has the PSH and the FIN of the payload. -/
theorem last_marks (h : Segmented (c.wire cfg) mss flags sequence isFirst rest wires) (i : Nat)
    {segment : TCPSegment} (hi : (wires.map WireSegment.read)[i]? = some segment) :
    segment.psh = (flags.psh && decide (i + 1 = (wires.map WireSegment.read).length)) ∧
      segment.fin = (flags.fin && decide (i + 1 = (wires.map WireSegment.read).length)) := by
  induction h generalizing i with
  | last hlast =>
      cases i with
      | zero =>
          obtain rfl := Option.some.inj hi
          simp [WireSegment.read, Conn.wire, Flags.closing]
      | succ i => cases hi
  | @more sequence isFirst rest wires hmore hrest ih =>
      cases i with
      | zero =>
          have hne : wires.length ≠ 0 := fun hnil => hrest.ne_nil (List.length_eq_zero_iff.mp hnil)
          obtain rfl := Option.some.inj hi
          simp [WireSegment.read, Conn.wire, Flags.within, hne]
      | succ i =>
          have hnext := ih i hi
          simpa using hnext

/-- The list the loop returns is made of what the packets say. -/
theorem returned (h : Segmented (c.wire cfg) mss flags sequence isFirst rest wires) :
    wires.filterMap WireSegment.tracked =
      (wires.map WireSegment.read).filterMap (TCPSegment.recorded flags.windowSize) := by
  rw [List.filterMap_map]
  refine List.filterMap_congr fun wire hmem => ?_
  obtain ⟨_, _, _, rfl, -, -, -, hwindow, -⟩ := h.made wire hmem
  unfold Function.comp TCPSegment.recorded
  rw [← hwindow]
  rfl

theorem not_recorded (h : Segmented (c.wire cfg) mss flags sequence isFirst rest wires)
    (hrst : flags.rst = true) : wires.filterMap WireSegment.tracked = [] := by
  rw [List.filterMap_eq_nil_iff]
  intro wire hmem
  obtain ⟨_, chunk, segmentFlags, rfl, -, -, hreset, -, -⟩ := h.made wire hmem
  have hr : segmentFlags.rst = true := hreset.trans hrst
  unfold WireSegment.tracked
  rw [if_neg (by simp [Conn.wire, hr])]

end Segmented

namespace Conn

variable {cfg : Settings} {identification : Nat → Fin 65535} {c : Conn} {payload : Bytes}
  {flags : Flags} {advance : Bool}

/-- A segment fits by its ports, its window and its length; its number plays no
part. -/
theorem wire_fits_iff {sequence : Seq} {chunk : Bytes} :
    (c.wire cfg sequence chunk flags).Fits ↔ c.tx.srcPort ≤ 0xffff ∧
      (0 ≤ c.tx.dstPort ∧ c.tx.dstPort ≤ 0xffff) ∧
      flags.windowSize.getD (c.tcpReceiveWindow cfg) ≤ 0xffff ∧
      40 + flags.syn.toNat * 4 + chunk.length ≤ 0xffff := by
  have hheader : (c.wire cfg sequence chunk flags).tcpHeaderLength = 20 + flags.syn.toNat * 4 := by
    rw [WireSegment.tcpHeaderLength, WireSegment.tcpOptions_length]
    unfold wire
    dsimp only
    cases flags.syn <;> rfl
  constructor
  · intro h
    have htotal := h.totalLength
    rw [hheader] at htotal
    refine ⟨h.srcPort, h.dstPort, h.window, ?_⟩
    change _ + (_ + chunk.length) ≤ _ at htotal
    omega
  · rintro ⟨hsrcPort, hdstPort, hwindow, htotal⟩
    refine ⟨hsrcPort, hdstPort, hwindow, ?_⟩
    rw [hheader]
    change _ + (_ + chunk.length) ≤ _
    omega

/-- If the first segment of a payload fits, all of them do: a SYN and the
longest chunk come first. -/
theorem Sendable.fits (h : Sendable cfg c payload flags) {sequence : Seq}
    {wires : List WireSegment}
    (hwires : Segmented (c.wire cfg) (c.tcpMss cfg) flags sequence true payload wires) :
    ∀ wire ∈ wires, wire.Fits := by
  intro wire hmem
  obtain ⟨_, chunk, segmentFlags, rfl, hle, -, -, hwindow, hsyn⟩ := hwires.made wire hmem
  refine wire_fits_iff.mpr ⟨h.srcPort, h.dstPort, hwindow ▸ h.window, ?_⟩
  cases hs : segmentFlags.syn with
  | false =>
      have hmss := tcpMss_le cfg c
      have hmtu := cfg.mtu_range
      unfold Settings.TCP_MSS at hmss
      simp only [Bool.toNat_false]
      omega
  | true =>
      obtain ⟨hflag, -, hlength⟩ := hsyn hs
      have hfirst := h.syn hflag
      simp only [Bool.toNat_true]
      omega

/-- Where the first segment does not fit, nothing is sent. -/
theorem emitTCP_error (h : ¬Sendable cfg c payload flags) (sequence : Option Seq) (advance : Bool) :
    ∃ thrown, c.emitTCP cfg identification payload flags sequence advance = .error thrown ∧
      thrown.packets = [] := by
  refine emitTCPLoop_error fun hfits => h ?_
  obtain ⟨hsrcPort, hdstPort, hwindow, htotal⟩ := wire_fits_iff.mp hfits
  refine ⟨hsrcPort, hdstPort, hwindow, fun hsyn => ?_⟩
  rw [List.length_take, Nat.min_comm] at htotal
  simp only [hsyn, Bool.and_self, Bool.toNat_true] at htotal
  omega

/-- Where it fits, everything is sent, and the connection and the returned list
are those of `sendTCP`. -/
theorem emitTCP_ok (h : Sendable cfg c payload flags) (hrst : flags.rst = true → payload = [])
    (sequence : Option Seq) (advance : Bool) :
    ∃ ips wires, c.emitTCP cfg identification payload flags sequence advance =
        .ok {
          conn := (c.sendTCP cfg payload flags sequence advance).1
          segments := (c.sendTCP cfg payload flags sequence advance).2
          packets := ips } ∧
      Segmented (c.wire cfg) (c.tcpMss cfg) flags (sequence.getD c.send.relaySeq) true payload
        wires ∧
      c.sendTCP cfg payload flags sequence advance =
        ({ c with
            sent := c.sent ++ wires
            send := { c.send with
              relaySeq := relaySeqAfter c.send.relaySeq advance (sequence.getD c.send.relaySeq)
                (wires.filterMap WireSegment.tracked) } },
          wires.filterMap WireSegment.tracked) ∧
      List.Forall₂ (fun segment ip => ∃ id, WireSegment.packet segment id = .ok ip) wires ips := by
  obtain ⟨wires, hwires, hloop⟩ := @sendTCPLoop_segmented cfg (c.tcpMss cfg) flags advance
    (payload.length + 1) payload (tcpMss_pos cfg c) hrst (Nat.lt_succ_self _) c
    (sequence.getD c.send.relaySeq) true []
  obtain ⟨ips, hemit, hall⟩ := @emitTCPLoop_segmented cfg identification (c.tcpMss cfg) flags
    advance (payload.length + 1) c _ _ _ _ _ (tcpMss_pos cfg c) hrst hwires (h.fits hwires)
    (Nat.lt_succ_self _) rfl [] []
  exact ⟨ips, wires, hemit, hwires, hloop, hall⟩

theorem relaySeqAfter_advanced {relaySeq sequence : Seq} {segments : List SentSegment}
    (hadvance : advance = true) (hne : segments ≠ []) :
    relaySeqAfter relaySeq advance sequence segments =
      sequence + BitVec.ofNat 32 (totalLength segments) := by
  unfold relaySeqAfter
  rw [if_pos (by simp [hadvance, hne])]

theorem relaySeqAfter_kept {relaySeq sequence : Seq} {segments : List SentSegment}
    (h : advance = false ∨ segments = []) :
    relaySeqAfter relaySeq advance sequence segments = relaySeq := by
  unfold relaySeqAfter
  rw [if_neg (by rcases h with h | h <;> simp [h])]

/-- The packets of the segments a payload is cut into, as the handlers read
them. -/
theorem reads_of_packets {wires : List WireSegment} {ips : List Bytes}
    (hmade : ∀ wire ∈ wires, ∃ sequence chunk segmentFlags,
      wire = c.wire cfg sequence chunk segmentFlags ∧ chunk.length ≤ c.tcpMss cfg)
    (h : List.Forall₂ (fun segment ip => ∃ id, WireSegment.packet segment id = .ok ip) wires ips) :
    List.Forall₂ ReadsAs ips (wires.map WireSegment.read) ∧
      List.Forall₂ (fun ip segment => segment.syn = false → List.length ip ≤ cfg.vmMtu) ips
        (wires.map WireSegment.read) := by
  induction h with
  | nil => exact ⟨.nil, .nil⟩
  | @cons wire ip wires ips hpacket hrest ih =>
      obtain ⟨hreads, hmtu⟩ := ih fun wire hmem => hmade wire (List.mem_cons_of_mem _ hmem)
      obtain ⟨sequence, chunk, segmentFlags, rfl, hle⟩ := hmade wire List.mem_cons_self
      obtain ⟨id, hid⟩ := hpacket
      obtain ⟨hread, hlength⟩ := @WireSegment.packet_reads
        (c.wire cfg sequence chunk segmentFlags) id cfg rfl ip hid
      refine ⟨.cons hread hreads, .cons (fun hsyn => ?_) hmtu⟩
      have hmss := tcpMss_le cfg c
      have hrange := cfg.mtu_range
      have hoptions : (c.wire cfg sequence chunk segmentFlags).mss = none := by
        have hs : segmentFlags.syn = false := hsyn
        simp [wire, hs]
      rw [WireSegment.tcpHeaderLength, WireSegment.tcpOptions_length, hoptions] at hlength
      change ip.length = 20 + (20 + 0 + chunk.length) at hlength
      unfold Settings.TCP_MSS at hmss
      omega

/-- `sendTCP` sends nothing where the ports or the window do not fit into their
fields, or a first segment with a SYN not into a packet. Otherwise it returns,
and its packets carry the payload. -/
theorem emitTCP_carries (cfg : Settings) (identification : Nat → Fin 65535) (c : Conn)
    (payload : Bytes) (flags : Flags) (sequence : Option Seq) (advance : Bool)
    (hrst : flags.rst = true → payload = []) :
    (Sendable cfg c payload flags →
      ∃ e segments, c.emitTCP cfg identification payload flags sequence advance = .ok e ∧
        Carries cfg c payload flags (sequence.getD c.send.relaySeq) advance e segments) ∧
    (¬Sendable cfg c payload flags →
      ∃ thrown, c.emitTCP cfg identification payload flags sequence advance = .error thrown ∧
        thrown.packets = []) := by
  refine ⟨fun h => ?_, fun h => emitTCP_error h sequence advance⟩
  obtain ⟨ips, wires, hemit, hwires, hsent, hpackets⟩ :=
    @emitTCP_ok cfg identification c payload flags h hrst sequence advance
  obtain ⟨hreads, hmtu⟩ := reads_of_packets
    (fun wire hmem => by
      obtain ⟨sequence, chunk, segmentFlags, hwire, hle, -⟩ := hwires.made wire hmem
      exact ⟨sequence, chunk, segmentFlags, hwire, hle⟩) hpackets
  have hmade : ∀ segment ∈ wires.map WireSegment.read, ∃ sequence chunk segmentFlags,
      segment = (c.wire cfg sequence chunk segmentFlags).read ∧ chunk.length ≤ c.tcpMss cfg ∧
      segmentFlags.ack = flags.ack ∧ segmentFlags.rst = flags.rst ∧
      segmentFlags.windowSize = flags.windowSize := by
    intro segment hmem
    obtain ⟨wire, hwire, rfl⟩ := List.mem_map.mp hmem
    obtain ⟨sequence, chunk, segmentFlags, rfl, hle, hack, hreset, hwindow, -⟩ :=
      hwires.made wire hwire
    exact ⟨sequence, chunk, segmentFlags, rfl, hle, hack, hreset, hwindow⟩
  rw [hsent] at hemit
  refine ⟨_, wires.map WireSegment.read, hemit, hreads, ?_, hwires.payload, ?_,
    hwires.consecutive, fun i segment hi => ?_, fun i segment hi => hwires.last_marks i hi, ?_, ?_,
    ?_, ?_, hmtu, hwires.returned, ?_, ?_, ⟨wires, rfl⟩⟩
  · exact fun hnil => hwires.ne_nil (List.map_eq_nil_iff.mp hnil)
  · intro segment hmem
    obtain ⟨_, chunk, _, rfl, hle, -⟩ := hmade segment hmem
    exact hle
  · rw [hwires.syn i hi, Bool.and_true]
  · intro segment hmem
    obtain ⟨_, _, _, rfl, -, hack, hreset, -⟩ := hmade segment hmem
    exact ⟨hack, hreset⟩
  · intro segment hmem
    obtain ⟨_, _, _, rfl, -⟩ := hmade segment hmem
    rfl
  · intro segment hmem
    obtain ⟨_, _, segmentFlags, rfl, -, -, -, hwindow⟩ := hmade segment hmem
    change segmentFlags.windowSize.getD _ = _
    rw [hwindow]
  · intro segment hmem
    obtain ⟨_, _, _, rfl, -⟩ := hmade segment hmem
    exact ⟨rfl, Int.toNat_of_nonneg h.dstPort.1, rfl, rfl⟩
  · intro hadvance _ hne
    exact relaySeqAfter_advanced hadvance hne
  · intro hkept
    refine relaySeqAfter_kept ?_
    rcases hkept with hadvance | hreset | hnil
    · exact .inl hadvance
    · exact .inr (hwires.not_recorded hreset)
    · exact .inr hnil

/-- A payload of three chunks on a connection that has just been opened. -/
theorem emitTCP_carries_chunks : ∃ e segments,
    exampleOutbound.emitTCP {} (fun _ => 7) (List.replicate 1100 0) { ack := true, psh := true }
      none true = .ok e ∧
    Carries {} exampleOutbound (List.replicate 1100 0) { ack := true, psh := true }
      exampleOutbound.send.relaySeq true e segments :=
  (emitTCP_carries {} (fun _ => 7) exampleOutbound (List.replicate 1100 0)
    { ack := true, psh := true } none true (fun h => by cases h)).1
    ⟨by decide, by decide, by decide, fun h => by cases h⟩

/-- From another sequence number than `relaySeq`, `relaySeq` does not advance by
what has been sent: it ends where the segment ends. A window of 65536 is not
sent at all. -/
theorem emitTCP_jumps :
    (∃ e, exampleOutbound.emitTCP {} (fun _ => 7) [1] { ack := true }
        (some (exampleOutbound.send.relaySeq + 5)) true = .ok e ∧
      totalLength e.segments = 1 ∧
        e.conn.send.relaySeq ≠ exampleOutbound.send.relaySeq + BitVec.ofNat 32 1) ∧
    ∃ thrown, exampleOutbound.emitTCP {} (fun _ => 7) []
        { ack := true, windowSize := some 65536 } none true = .error thrown ∧
      thrown.packets = [] := by
  have hsent : totalLength (exampleOutbound.sendTCP {} [1] { ack := true }
        (some (exampleOutbound.send.relaySeq + 5)) true).2 = 1 ∧
      (exampleOutbound.sendTCP {} [1] { ack := true }
        (some (exampleOutbound.send.relaySeq + 5)) true).1.send.relaySeq ≠
          exampleOutbound.send.relaySeq + BitVec.ofNat 32 1 := by
    decide
  obtain ⟨ips, wires, hemit, -⟩ := @emitTCP_ok {} (fun _ => 7) exampleOutbound [1] { ack := true }
    ⟨by decide, by decide, by decide, fun h => by cases h⟩ (fun h => by cases h)
    (some (exampleOutbound.send.relaySeq + 5)) true
  refine ⟨⟨_, hemit, hsent⟩, emitTCP_error (fun hsendable => ?_) none true⟩
  exact absurd hsendable.window (by decide)

end Conn

end RootlessRelay
