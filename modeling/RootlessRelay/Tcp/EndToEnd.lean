import RootlessRelay.Library.Delivery
import RootlessRelay.Tcp.LedgerRuns

/-!
# From the endpoint to the VM

A connection, the network behind it and the receiving side of the VM. The
network may lose, repeat and reorder segments in both directions, as long as
they do not grow older than half the sequence space. The VM takes what is next
in the stream and acknowledges what it has.

The sender is seen through its ledger. A segment in flight is an emission of it,
with a place in the stream that its sequence number determines as long as it is
not too old; an acknowledgement on its way is a count of items that the VM has
had. `Tracks` ties both ends to the ledger, and every event keeps it.
-/

namespace RootlessRelay

open SequenceSpace Transition SendStream Delivery

/-- What the VM makes of a segment. The SYN tells it the number of the first
item; a reset it ignores here. -/
def hear (vm : Option (Receiver 32 Item)) (wire : WireSegment) : Option (Receiver 32 Item) :=
  if wire.flags.rst then vm
  else match vm with
    | some r => some (r.accept wire.sequence (itemsOf wire.payload wire.flags))
    | none =>
        if wire.flags.syn then
          some ((⟨wire.sequence, []⟩ : Receiver 32 Item).accept wire.sequence
            (itemsOf wire.payload wire.flags))
        else none

/-- The items that the VM has, in the order of the stream. -/
def heard (vm : Option (Receiver 32 Item)) : List Item :=
  match vm with
  | some r => r.received
  | none => []

/-- A connection and its peer. `returned` lists what the VM has sent, each
segment with the number of items that the VM had then. -/
structure Link where
  conn : Conn
  vm : Option (Receiver 32 Item)
  returned : List (VMSegment × Nat)

namespace Link

/-- `arrive n` and `deliver n` bring the `n`-th segment that the VM or the relay
has sent. Nothing is taken out of the network. -/
inductive Event
  | relay (turn : Turn) (event : RootlessRelay.Event)
  | arrive (turn : Turn) (n : Nat)
  | deliver (n : Nat)
  | reply (seg : VMSegment)

/-- How old a segment may be when it arrives, in items: half the sequence space. -/
def lifetime : Nat := 2147483648

/-- Segments arrive any number of times, or never. Their age is counted in the
items that have been emitted or received since they were sent. -/
inductive Step (cfg : Settings) : Link → Event → Link → Prop
  | relay {l : Link} {turn : Turn} {event : RootlessRelay.Event} {conn : Conn}
      (own : ¬Conn.Brings (fun _ => True) event)
      (step : Conn.Step cfg l.conn (turn, event) conn) :
      Step cfg l (.relay turn event) { l with conn }
  | arrive {l : Link} {turn : Turn} {n : Nat} {seg : VMSegment} {count : Nat} {conn : Conn}
      (sent : l.returned[n]? = some (seg, count)) (fresh : (heard l.vm).length < count + lifetime)
      (step : Conn.Step cfg l.conn (turn, .segment seg) conn) :
      Step cfg l (.arrive turn n) { l with conn }
  | deliver {l : Link} {n : Nat} {wire : WireSegment} {after : List WireSegment}
      (sent : l.conn.sent.drop n = wire :: after)
      (fresh : volume (occupied (wire :: after)) < lifetime) :
      Step cfg l (.deliver n) { l with vm := hear l.vm wire }
  | reply {l : Link} {seg : VMSegment}
      (acknowledges : seg.ack = true → ∃ r, l.vm = some r ∧ seg.ackNum = r.next) :
      Step cfg l (.reply seg) { l with returned := l.returned ++ [(seg, (heard l.vm).length)] }

end Link

namespace Ledger

/-- The stream begins with its only SYN. -/
def SynFirst (l : Ledger) : Prop := ∃ rest, l.stream.history = .syn :: rest ∧ .syn ∉ rest

/-- What a ledger keeps that the network between the two relies on. -/
structure Coherent (l : Ledger) : Prop where
  consistent : l.Consistent
  conserved : l.stream.Conserved itemFormat
  recent : Recent flightLimit l.stream.history l.emitted
  flight : l.stream.outstanding.length ≤ flightLimit
  synFirst : l.SynFirst

variable {cfg : Settings} {l l' : Ledger} {deed : Deed}

theorem Step.isn (step : Step cfg l deed l') : l'.isn = l.isn := by
  cases step <;> rfl

/-- How many items a deed acknowledges. -/
def covers : Deed → Nat
  | .acknowledge count _ => count
  | _ => 0

theorem Step.acknowledged (step : Step cfg l deed l') :
    l'.stream.acknowledged.length = l.stream.acknowledged.length + covers deed := by
  cases step with
  | enqueue opened nonempty moved => cases moved; rfl
  | transmit opened pos short queued room flight granted moved => cases moved; rfl
  | probe opened idle queued moved => cases moved; rfl
  | finish opened flight moved => cases moved; rfl
  | acknowledge opened sent growth moved =>
      cases moved
      rw [List.length_append, List.length_take_of_le sent]
      rfl
  | _ => rfl

theorem Step.history_prefix (step : Step cfg l deed l') :
    l.stream.history <+: l'.stream.history := by
  cases step with
  | enqueue opened nonempty moved => exact moved.history_prefix
  | transmit opened pos short queued room flight granted moved => exact moved.history_prefix
  | probe opened idle queued moved => exact moved.history_prefix
  | finish opened flight moved => exact moved.history_prefix
  | acknowledge opened sent growth moved => exact moved.history_prefix
  | _ => exact List.prefix_rfl

/-- A deed keeps what is outstanding within the flight limit. -/
theorem Step.flight (step : Step cfg l deed l') (h : l.stream.outstanding.length ≤ flightLimit) :
    l'.stream.outstanding.length ≤ flightLimit := by
  cases step with
  | enqueue opened nonempty moved =>
      cases moved
      exact h
  | transmit opened pos short queued room flight granted moved =>
      exact (moved.outstanding_transmit queued).trans_le flight
  | probe opened idle queued moved =>
      rw [moved.outstanding_transmit queued, idle]
      decide
  | finish opened flight moved => exact moved.outstanding_finish.trans_le flight
  | acknowledge opened sent growth moved =>
      cases moved
      rw [List.length_drop]
      exact (Nat.sub_le _ _).trans h
  | _ => exact h

/-- A place behind the stream, for new items. -/
theorem recent_place (h : Recent flightLimit l.stream.history l.emitted) {items : List Item}
    {history : List Item} (hhistory : history = l.stream.history ++ items) :
    Recent flightLimit history (l.place items) := by
  have hlength : history.length = l.stream.history.length + items.length := by
    rw [hhistory, List.length_append]
  exact h.snoc hlength.le (by omega)

/-- A deed keeps emissions recent: what is sent again lies within the flight. -/
theorem Step.recent (step : Step cfg l deed l')
    (h : Recent flightLimit l.stream.history l.emitted) :
    Recent flightLimit l'.stream.history l'.emitted := by
  cases step with
  | enqueue opened nonempty moved =>
      cases moved
      exact h
  | transmit opened pos short queued room flight granted moved =>
      cases moved
      exact recent_place h (by simp only [State.history, List.append_assoc]; rfl)
  | probe opened idle queued moved =>
      cases moved
      exact recent_place h (by simp only [State.history, List.append_assoc]; rfl)
  | finish opened flight moved =>
      cases moved
      exact recent_place h (by simp only [State.history, List.append_assoc]; rfl)
  | again opened some unacked cut near =>
      exact h.snoc (Nat.le_add_right _ _) (near.trans (Nat.le_add_right _ _))
  | acknowledge opened sent growth moved =>
      cases moved
      refine h.congr (congrArg List.length ?_)
      simp only [State.history, List.append_assoc, List.take_append_drop]
  | _ => exact h

theorem SynFirst.append (h : l.SynFirst) {stream : State Item Byte} (items : List Item)
    (hhistory : stream.history = l.stream.history ++ items) (hsyn : .syn ∉ items) :
    ∃ rest, stream.history = .syn :: rest ∧ .syn ∉ rest := by
  obtain ⟨rest, hrest, hnone⟩ := h
  refine ⟨rest ++ items, ?_, fun hmem => ?_⟩
  · rw [hhistory, hrest, List.cons_append]
  · exact (List.mem_append.mp hmem).elim hnone hsyn

/-- A deed neither adds a second SYN nor puts anything before the first. -/
theorem Step.synFirst (step : Step cfg l deed l') (h : l.SynFirst) : l'.SynFirst := by
  cases step with
  | enqueue opened nonempty moved =>
      cases moved
      exact h
  | transmit opened pos short queued room flight granted moved =>
      cases moved
      exact h.append _ (by simp only [State.history, List.append_assoc]; rfl)
        (syn_not_mem_bytes _)
  | probe opened idle queued moved =>
      cases moved
      exact h.append _ (by simp only [State.history, List.append_assoc]; rfl)
        (syn_not_mem_bytes _)
  | finish opened flight moved =>
      cases moved
      exact h.append [.fin] (by simp only [State.history, List.append_assoc]; rfl) (by simp)
  | acknowledge opened sent growth moved =>
      cases moved
      exact h.append [] (by simp only [State.history, List.append_assoc, List.take_append_drop,
        List.append_nil]) List.not_mem_nil
  | _ => exact h

theorem Step.coherent (step : Step cfg l deed l') (h : l.Coherent) : l'.Coherent where
  consistent := step.consistent h.consistent
  conserved := step.conserved h.conserved
  recent := step.recent h.recent
  flight := step.flight h.flight
  synFirst := step.synFirst h.synFirst

theorem coherent_opening (cfg : Settings) (isn : Seq) (window : Nat)
    (rateLimiter : SlidingWindowRateLimiter) : (opening cfg isn window rateLimiter).Coherent where
  consistent := Conn.consistent_opening cfg isn window rateLimiter
  conserved := rfl
  recent := Recent.first [Item.syn]
  flight := Nat.le_add_left 1 65537
  synFirst := ⟨[], rfl, List.not_mem_nil⟩

end Ledger

/-- The VM is on the stream of the ledger, nothing that it lacks has been
acknowledged, and what it has sent says how far it was. -/
structure Tracks (l : Ledger) (vm : Option (Receiver 32 Item)) (returned : List (VMSegment × Nat)) :
    Prop where
  follows : ∀ r, vm = some r → r.Follows l.isn l.stream.history
  unlost : l.stream.acknowledged.length ≤ (heard vm).length
  returned : ∀ seg count, (seg, count) ∈ returned → count ≤ (heard vm).length ∧
    (seg.ack = true → seg.ackNum = position l.isn count)

section Tracks

variable {cfg : Settings} {l l' : Ledger} {vm : Option (Receiver 32 Item)}
  {returned : List (VMSegment × Nat)} {c start : Conn} {turn : Turn} {quiet : Nat}
  {event : Event} {deed : Deed}

theorem Tracks.heard_prefix (h : Tracks l vm returned) : heard vm <+: l.stream.history := by
  cases vm with
  | none => exact List.nil_prefix
  | some r => exact (h.follows r rfl).received

theorem Ledger.Coherent.history_le (h : l.Coherent) :
    l.stream.history.length ≤ l.stream.acknowledged.length + Ledger.flightLimit := by
  rw [State.history, List.length_append]
  exact Nat.add_le_add_left h.flight _

/-- What a deed acknowledges, some segment has acknowledged that is not too old.
Its number tells how many items the VM had when it was sent, so the deed covers
no more than the VM has. -/
theorem Tracks.covers_le (h : Tracks l vm returned) (hl : l.Coherent)
    (hstep : Ledger.Step cfg l deed l') (hdue : Conn.Due start turn quiet event l deed)
    (hfresh : ∀ seg, event = .segment seg →
      ∃ count, (seg, count) ∈ returned ∧ (heard vm).length < count + Link.lifetime) :
    l.stream.acknowledged.length + Ledger.covers deed ≤ (heard vm).length := by
  cases hstep with
  | @acknowledge count congestion stream opened sent growth moved =>
      obtain ⟨seg, hevent, hflag, hnumber⟩ := hdue
      obtain ⟨had, hmem, hage⟩ := hfresh seg hevent
      obtain ⟨hle, hack⟩ := h.returned seg had hmem
      have hhistory := hl.history_le
      have hsplit : l.stream.history.length =
          l.stream.acknowledged.length + l.stream.outstanding.length := List.length_append
      have hheard := h.heard_prefix.length_le
      have hunlost := h.unlost
      unfold Link.lifetime at hage
      unfold Ledger.flightLimit at hhistory
      have hplace : l.stream.acknowledged.length + count = had :=
        acknowledged_place hnumber (hack hflag) (by omega) (by omega)
      exact hplace.trans_le hle
  | _ => exact h.unlost

/-- A deed of the sender keeps the VM behind it. -/
theorem Tracks.step (h : Tracks l vm returned) (hl : l.Coherent)
    (hstep : Ledger.Step cfg l deed l') (hdue : Conn.Due start turn quiet event l deed)
    (hfresh : ∀ seg, event = .segment seg →
      ∃ count, (seg, count) ∈ returned ∧ (heard vm).length < count + Link.lifetime) :
    Tracks l' vm returned := by
  have hisn := hstep.isn
  refine ⟨fun r hr => ?_, ?_, fun seg count hmem => ?_⟩
  · rw [hisn]
    exact (h.follows r hr).mono hstep.history_prefix
  · rw [hstep.acknowledged]
    exact h.covers_le hl hstep hdue hfresh
  · rw [hisn]
    exact h.returned seg count hmem

/-- The emission behind a segment that has been sent. -/
theorem Conn.Kept.emission (hkept : c.Kept l) {before after : List WireSegment} {wire : WireSegment}
    (hsent : c.sent = before ++ wire :: after) (hoccupies : wire.occupies = true) :
    ∃ front place back, l.emitted = front ++ (place, itemsOf wire.payload wire.flags) :: back ∧
      wire.sequence = position l.isn place ∧
      volume ((place, itemsOf wire.payload wire.flags) :: back) =
        volume (occupied (wire :: after)) := by
  have hcons : occupied (wire :: after) =
      (wire.sequence, itemsOf wire.payload wire.flags) :: occupied after := by
    rw [← List.singleton_append, occupied_append, occupied_single hoccupies, List.singleton_append]
  have hemitted := hkept.emitted
  rw [hsent, occupied_append] at hemitted
  obtain ⟨front, rest, hsplit, -, hrest⟩ := List.map_eq_append_iff.mp hemitted.symm
  have hvolume : volume rest = volume (occupied (wire :: after)) := by
    rw [← hrest]
    exact (volume_map (position c.send.relayIsn) rest).symm
  rw [hcons] at hrest
  obtain ⟨⟨place, items⟩, back, rfl, hfirst, -⟩ := List.map_eq_cons_iff.mp hrest
  obtain ⟨hsequence, hitems⟩ := Prod.mk.inj hfirst
  dsimp only at hsequence hitems
  subst hitems
  refine ⟨front, place, back, hsplit, ?_, hvolume⟩
  rw [hkept.isn]
  exact hsequence.symm

theorem heard_hear (vm : Option (Receiver 32 Item)) (wire : WireSegment) :
    heard vm <+: heard (hear vm wire) := by
  unfold hear
  split
  · exact List.prefix_rfl
  · cases vm with
    | none => exact List.nil_prefix
    | some r => exact r.accept_received _ _

/-- A segment without items does not move the VM. -/
theorem hear_of_not_occupies {wire : WireSegment} (h : wire.occupies = false)
    (vm : Option (Receiver 32 Item)) : hear vm wire = vm := by
  unfold hear
  cases hrst : wire.flags.rst with
  | true => rfl
  | false =>
      have hnil : itemsOf wire.payload wire.flags = [] := by
        by_contra hne
        exact Bool.false_ne_true (h.symm.trans ((occupies_iff wire).mpr ⟨hrst, hne⟩))
      have hsyn : wire.flags.syn = false := by
        by_contra hyes
        rw [Bool.not_eq_false] at hyes
        simp [itemsOf, hyes] at hnil
      cases vm with
      | none => simp [hsyn]
      | some r => simp [hnil, Receiver.accept]

/-- The only segment with a SYN stands at the beginning of the stream. -/
theorem Ledger.SynFirst.place_eq_zero (h : l.SynFirst) {place : Nat} {payload : Bytes}
    {flags : Flags} (hcut : itemsOf payload flags <+: l.stream.history.drop place)
    (hsyn : flags.syn = true) : place = 0 := by
  obtain ⟨rest, hrest, hnone⟩ := h
  have hmem : Item.syn ∈ l.stream.history.drop place :=
    hcut.subset (by simp [itemsOf, hsyn])
  rw [hrest] at hmem
  cases place with
  | zero => rfl
  | succ place =>
      rw [List.drop_succ_cons] at hmem
      exact absurd (List.mem_of_mem_drop hmem) hnone

/-- A segment that arrives at the VM is put where the stream has it, or is too
early to be taken. -/
theorem Tracks.hear (h : Tracks l vm returned) (hl : l.Coherent) (hkept : c.Kept l)
    {before after : List WireSegment} {wire : WireSegment}
    (hsent : c.sent = before ++ wire :: after)
    (hfresh : volume (occupied (wire :: after)) < Link.lifetime) :
    Tracks l (hear vm wire) returned := by
  cases hoccupies : wire.occupies with
  | false =>
      rw [hear_of_not_occupies hoccupies]
      exact h
  | true =>
      have hgrown := (heard_hear vm wire).length_le
      refine ⟨fun r hr => ?_, h.unlost.trans hgrown, fun seg count hmem => ?_⟩
      swap
      · obtain ⟨hle, hack⟩ := h.returned seg count hmem
        exact ⟨hle.trans hgrown, hack⟩
      obtain ⟨hrst, hne⟩ := (occupies_iff wire).mp hoccupies
      obtain ⟨front, place, back, hsplit, hsequence, hvolume⟩ := hkept.emission hsent hoccupies
      have hcut : itemsOf wire.payload wire.flags <+: l.stream.history.drop place :=
        hl.consistent place _ (hsplit ▸ List.mem_append_right front List.mem_cons_self)
      have hpast : l.stream.history.length < place + 2 ^ 32 := by
        have hrecent := hl.recent front place _ back hsplit
        rw [hvolume] at hrecent
        unfold Link.lifetime at hfresh
        unfold Ledger.flightLimit at hrecent
        omega
      have hreach : place + (itemsOf wire.payload wire.flags).length ≤
          (heard vm).length + 2 ^ 32 := by
        have hlength := hcut.length_le
        rw [List.length_drop] at hlength
        have hpos := List.length_pos_of_ne_nil hne
        have hhistory := hl.history_le
        have hunlost := h.unlost
        unfold Ledger.flightLimit at hhistory
        omega
      unfold RootlessRelay.hear at hr
      rw [hrst, if_neg Bool.false_ne_true, hsequence] at hr
      cases vm with
      | some r₀ =>
          obtain rfl := Option.some.inj hr
          exact (h.follows r₀ rfl).accept hcut hpast hreach
      | none =>
          cases hsyn : wire.flags.syn with
          | false => simp [hsyn] at hr
          | true =>
              obtain rfl : place = 0 := hl.synFirst.place_eq_zero hcut hsyn
              simp only [hsyn, if_true, position_zero] at hr
              obtain rfl := Option.some.inj hr
              have haccept :=
                (Receiver.Follows.start l.isn l.stream.history).accept hcut hpast hreach
              rwa [position_zero] at haccept

end Tracks

namespace Link

variable {cfg : Settings} {l l' : Link} {event : Event}

/-- The invariant of the link: the connection's own, and a ledger that both ends
are tied to. -/
def Sound (cfg : Settings) (l : Link) : Prop :=
  Conn.Inv cfg l.conn ∧ ∃ b, l.conn.Kept b ∧ b.Coherent ∧ Tracks b l.vm l.returned

/-- A callback of the connection keeps the invariant. -/
theorem Sound.callback (h : l.Sound cfg) {turn : Turn} {event : RootlessRelay.Event} {conn : Conn}
    (hfresh : ∀ seg, event = .segment seg →
      ∃ count, (seg, count) ∈ l.returned ∧ (heard l.vm).length < count + lifetime)
    (hstep : Conn.Step cfg l.conn (turn, event) conn) : Sound cfg { l with conn } := by
  obtain ⟨hinv, b, hkept, hcoherent, htracks⟩ := h
  obtain ⟨quiet, hacts⟩ := hinv.acts hstep
  refine ⟨hinv.step hstep, hacts.keep (fun b deed b' hdue hdeed hb => ?_)
    ⟨b, hkept, hcoherent, htracks⟩⟩
  exact ⟨hdeed.coherent hb.1, hb.2.step hb.1 hdeed hdue hfresh⟩

/-- The step lemma of the link: an event of the relay or an arrival at either
end keeps the invariant. -/
theorem Step.sound (step : Step cfg l event l') (h : l.Sound cfg) : l'.Sound cfg := by
  cases step with
  | relay own step =>
      refine h.callback (fun seg hseg => absurd trivial ?_) step
      rwa [hseg] at own
  | @arrive _ _ seg count _ sent fresh step =>
      refine h.callback (fun seg' hseg => ?_) step
      cases hseg
      exact ⟨count, List.mem_of_getElem? sent, fresh⟩
  | @deliver n wire after sent fresh =>
      obtain ⟨hinv, b, hkept, hcoherent, htracks⟩ := h
      have hsplit : l.conn.sent = l.conn.sent.take n ++ wire :: after := by
        rw [← sent, List.take_append_drop]
      exact ⟨hinv, b, hkept, hcoherent, htracks.hear hcoherent hkept hsplit fresh⟩
  | @reply seg acknowledges =>
      obtain ⟨hinv, b, hkept, hcoherent, htracks⟩ := h
      refine ⟨hinv, b, hkept, hcoherent, htracks.follows, htracks.unlost, fun seg' count hmem => ?_⟩
      rcases List.mem_append.mp hmem with hold | hnew
      · exact htracks.returned seg' count hold
      · obtain ⟨rfl, rfl⟩ := Prod.mk.inj (List.mem_singleton.mp hnew)
        refine ⟨Nat.le_refl _, fun hflag => ?_⟩
        obtain ⟨r, hvm, hnumber⟩ := acknowledges hflag
        rw [hnumber, (htracks.follows r hvm).next, hvm]
        rfl

/-- A callback of the connection, if it is enabled and returns. -/
def callback (cfg : Settings) (l : Link) (turn : Turn) (event : RootlessRelay.Event) :
    Option Link :=
  if l.conn.Enabled event then
    (l.conn.handle cfg turn event).toOption.map fun conn => { l with conn }
  else none

/-- An event of the link, computed, where it is possible. -/
def perform (cfg : Settings) (l : Link) : Event → Option Link
  | .relay turn event =>
      if Conn.Brings (fun _ => True) event then none else l.callback cfg turn event
  | .arrive turn n =>
      match l.returned[n]? with
      | some (seg, count) =>
          if (heard l.vm).length < count + lifetime then l.callback cfg turn (.segment seg)
          else none
      | none => none
  | .deliver n =>
      match l.conn.sent.drop n with
      | wire :: after =>
          if volume (occupied (wire :: after)) < lifetime then
            some { l with vm := hear l.vm wire }
          else none
      | [] => none
  | .reply seg =>
      if seg.ack = false ∨ l.vm.any (fun r => seg.ackNum = r.next) then
        some { l with returned := l.returned ++ [(seg, (heard l.vm).length)] }
      else none

theorem callback_step {turn : Turn} {event : RootlessRelay.Event}
    (h : l.callback cfg turn event = some l') :
    ∃ conn, Conn.Step cfg l.conn (turn, event) conn ∧ l' = { l with conn } := by
  unfold callback at h
  split at h
  · rename_i henabled
    obtain ⟨conn, hok, rfl⟩ := Option.map_eq_some_iff.mp h
    exact ⟨conn, ⟨henabled, Conn.ok_of_toOption hok⟩, rfl⟩
  · cases h

/-- What has been computed is a step. -/
theorem perform_step (h : l.perform cfg event = some l') : Step cfg l event l' := by
  cases event with
  | relay turn event =>
      simp only [perform] at h
      split at h
      · cases h
      · rename_i hown
        obtain ⟨conn, hstep, rfl⟩ := callback_step h
        exact .relay hown hstep
  | arrive turn n =>
      simp only [perform] at h
      split at h
      · rename_i seg count hsent
        split at h
        · rename_i hfresh
          obtain ⟨conn, hstep, rfl⟩ := callback_step h
          exact .arrive hsent hfresh hstep
        · cases h
      · cases h
  | deliver n =>
      simp only [perform] at h
      split at h
      · rename_i wire after hsent
        split at h
        · rename_i hfresh
          cases h
          exact .deliver hsent hfresh
        · cases h
      · cases h
  | reply seg =>
      simp only [perform] at h
      split at h
      · rename_i hack
        cases h
        refine .reply fun hflag => ?_
        obtain ⟨r, hvm, hnumber⟩ := (Option.any_eq_true _ _).mp
          (hack.resolve_left (by simp [hflag]))
        exact ⟨r, hvm, of_decide_eq_true hnumber⟩
      · cases h

theorem run_of_foldlM {events : List Event} {l l' : Link}
    (h : events.foldlM (perform cfg) l = some l') : Run (Step cfg) l events l' := by
  induction events generalizing l with
  | nil =>
      cases h
      exact .nil _
  | cons event rest ih =>
      rw [List.foldlM_cons] at h
      obtain ⟨l₁, hfirst, hrest⟩ := Option.bind_eq_some_iff.mp h
      exact .cons (perform_step hfirst) (ih hrest)

/-- The connection has just been opened, and nothing has arrived. -/
def start (c : Conn) : Link := ⟨c, none, []⟩

theorem sound_start {c : Conn} (h : Conn.Opened cfg c) : (start c).Sound cfg := by
  obtain ⟨isn, window, hkept⟩ := h.kept
  exact ⟨h.inv, _, hkept, Ledger.coherent_opening cfg isn window c.rateLimiter, nofun,
    Nat.le_refl _, nofun⟩

/-- The payload that the relay still holds, oldest first. -/
def held (c : Conn) : Bytes :=
  c.send.retransmission.segments.flatMap Segment.payload ++ c.send.sendQueue.flatten

/-- What the endpoint has handed in reaches the VM in order, once, and without
gaps, whatever is lost, repeated and reordered on the way. As long as the
connection is current, the relay still holds whatever the VM lacks. -/
theorem end_to_end {c : Conn} (hopen : Conn.Opened cfg c) {events : List Event}
    (hrun : Run (Step cfg) (start c) events l) :
    dataOf (heard l.vm) <+: l.conn.send.enqueued ∧
      (l.conn.Current → l.conn.send.acknowledged <+: heard l.vm ∧
        ∃ missing, l.conn.send.enqueued = dataOf (heard l.vm) ++ missing ∧
          missing <:+ held l.conn) := by
  obtain ⟨hinv, b, hkept, hcoherent, htracks⟩ :=
    hrun.invariant (P := Sound cfg) (fun _ _ _ h hstep => hstep.sound h) (sound_start hopen)
  have hheard := htracks.heard_prefix
  have hconserved := hcoherent.conserved
  rw [State.Conserved, filterMap_itemFormat, hkept.enqueued] at hconserved
  constructor
  · obtain ⟨rest, hrest⟩ := hheard
    refine ⟨dataOf rest ++ b.stream.queued, ?_⟩
    rw [← hconserved, ← hrest, dataOf_append, List.append_assoc]
  · intro hcurrent
    have hlive := (hinv hcurrent.1).resolve_right fun hfinished => hcurrent.2 hfinished.state
    have hstream : b.stream = l.conn.stream :=
      congrArg Standing.stream (hkept.standing hlive.sending.opened)
    have hacknowledged : b.stream.acknowledged <+: heard l.vm :=
      List.prefix_of_prefix_length_le (List.prefix_append _ _) hheard htracks.unlost
    obtain ⟨beyond, hbeyond⟩ := hacknowledged
    obtain ⟨rest, hrest⟩ := hheard
    have houtstanding : b.stream.outstanding = beyond ++ rest := by
      rw [State.history, ← hbeyond, List.append_assoc] at hrest
      exact (List.append_cancel_left hrest).symm
    refine ⟨⟨beyond, ?_⟩, dataOf rest ++ b.stream.queued, ?_, dataOf beyond, ?_⟩
    · rw [← hbeyond, hstream]
      rfl
    · rw [← hconserved, ← hrest, dataOf_append, List.append_assoc]
    · have hpayload : l.conn.send.retransmission.segments.flatMap Segment.payload =
          dataOf beyond ++ dataOf rest := by
        rw [← dataOf_segmentItems, ← dataOf_append, ← houtstanding, hstream]
        rfl
      rw [held, hpayload, hstream, List.append_assoc]
      rfl

/-- The handshake arrives twice in both directions. The second segment with
payload overtakes the first, which is lost and sent again. -/
theorem end_to_end_reordered : ∃ l : Link, l.conn.Current ∧
    l.conn.send.enqueued = [1, 2, 3] ∧ heard l.vm = [.syn, .byte 1, .byte 2, .byte 3] ∧
    held l.conn = [] ∧ dataOf (heard l.vm) <+: l.conn.send.enqueued ∧
      (l.conn.Current → l.conn.send.acknowledged <+: heard l.vm ∧
        ∃ missing, l.conn.send.enqueued = dataOf (heard l.vm) ++ missing ∧
          missing <:+ held l.conn) := by
  have hcomputed : ([.deliver 0, .reply Conn.exampleSynAck, .deliver 0, .arrive {} 0,
      .relay {} (.sourceData [1]), .relay {} (.sourceData [2, 3]), .deliver 3, .arrive {} 0,
      .relay {} (.retransmissionTimer 3), .deliver 5, .deliver 3, .deliver 2,
      .reply { seqNum := 100#32, ackNum := 11#32, ack := true, window := 1000#16 },
      .arrive {} 1].foldlM (perform {}) (start Conn.exampleReverse)).any (fun l =>
        l.conn.registered && l.conn.state ≠ .closed && l.conn.send.enqueued = [1, 2, 3] &&
          heard l.vm = [.syn, .byte 1, .byte 2, .byte 3] && held l.conn = []) = true := by
    decide
  obtain ⟨l, hrun, hl⟩ := (Option.any_eq_true _ _).mp hcomputed
  simp only [Bool.and_eq_true, decide_eq_true_eq] at hl
  obtain ⟨⟨⟨⟨hreg, hstate⟩, henqueued⟩, hheard⟩, hheld⟩ := hl
  exact ⟨l, ⟨hreg, hstate⟩, henqueued, hheard, hheld,
    end_to_end Conn.opened_exampleReverse (run_of_foldlM hrun)⟩

end Link
end RootlessRelay
