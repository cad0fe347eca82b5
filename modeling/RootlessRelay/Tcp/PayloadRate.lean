import RootlessRelay.Tcp.SessionRuns

/-!
# The rate of a session

The connections of a session share one limiter, and only outbound connections
ask it. What they put on the wire for the first time, in the time that one
window of the limiter spans, is at most what the limiter admits and the probes
of zero windows. Retransmissions are not limited, and are not counted.

New payload is counted from the wire alone, by the segments that extend what has
been sent; in the books it is the payload that has entered sequence space. Each
byte of it was granted by the limiter in the callback that sent it, or was the
one byte of a probe, and a window of the limiter admits a bounded number of
bytes. Every grant is counted at the time of its callback.
-/

namespace RootlessRelay

open SequenceSpace SlidingLog Transition SendStream

/-- A segment at the next sequence number extends what has been sent. Any other
one repeats. -/
def extend (sent : Seq × Nat) (segment : Seq × List Item) : Seq × Nat :=
  if segment.1 = sent.1 then
    (position sent.1 segment.2.length, sent.2 + (dataOf segment.2).length)
  else sent

/-- The bytes of payload that no earlier segment carries. -/
def newPayload (isn : Seq) (segments : List (Seq × List Item)) : Nat :=
  (segments.foldl extend (isn, 0)).2

namespace Ledger

variable {cfg : Settings} {l l' : Ledger} {deed : Deed}

/-- The payload that has entered sequence space. -/
def payload (l : Ledger) : Nat := (dataOf l.stream.history).length

/-- Each item of the stream was new in one segment. -/
def Extended (l : Ledger) : Prop :=
  ∀ isn, (numbered isn l.emitted).foldl extend (isn, 0) =
    (position isn l.stream.history.length, l.payload)

theorem Extended.place (h : l.Extended) {items : List Item} {stream : State Item Byte}
    (hhistory : stream.history = l.stream.history ++ items) (isn : Seq) :
    (numbered isn (l.place items)).foldl extend (isn, 0) =
      (position isn stream.history.length, (dataOf stream.history).length) := by
  rw [Ledger.place, numbered_append, List.foldl_append, h isn]
  change extend _ (position isn l.stream.history.length, items) = _
  rw [extend, if_pos rfl, position_add, hhistory, List.length_append, dataOf_append,
    List.length_append]
  rfl

/-- Every deed keeps each item new in one segment: what is sent again does not
extend anything. -/
theorem Step.extended (step : Step cfg l deed l') (h : l.Extended) : l'.Extended := by
  have hsame : ∀ {stream : State Item Byte}, stream.history = l.stream.history →
      Extended { l with stream } := by
    intro stream hhistory isn
    change _ = (position isn stream.history.length, (dataOf stream.history).length)
    rw [hhistory]
    exact h isn
  cases step with
  | enqueue opened nonempty moved =>
      cases moved
      exact h
  | transmit opened pos short queued room flight granted moved =>
      cases moved
      exact h.place (by simp only [State.history, List.append_assoc]; rfl)
  | probe opened idle queued moved =>
      cases moved
      exact h.place (by simp only [State.history, List.append_assoc]; rfl)
  | finish opened flight moved =>
      cases moved
      exact h.place (by simp only [State.history, List.append_assoc]; rfl)
  | @again place items opened some unacked cut near =>
      -- The place lies before the end of the stream, and less than one turn before it.
      have hlt : place < l.stream.history.length := by
        by_contra hge
        rw [List.drop_of_length_le (Nat.not_lt.mp hge)] at cut
        exact some (List.prefix_nil.mp cut)
      unfold flightLimit at near
      intro isn
      change (numbered isn (l.emitted ++ [(place, items)])).foldl extend (isn, 0) = _
      rw [numbered_append, List.foldl_append, h isn]
      change extend _ (position isn place, items) = _
      rw [extend, if_neg]
      · rfl
      · intro heq
        have hplace := (position_inj (by omega) (by omega)).mp heq
        omega
  | acknowledge opened sent growth moved =>
      cases moved
      exact hsame (by simp only [State.history, List.append_assoc, List.take_append_drop])
  | _ => exact h

theorem extended_opening (cfg : Settings) (first : Seq) (window : Nat)
    (rateLimiter : SlidingWindowRateLimiter) :
    (Ledger.opening cfg first window rateLimiter).Extended := by
  intro isn
  change extend (isn, 0) (position isn 0, [.syn]) = _
  rw [position_zero, extend, if_pos rfl]
  rfl

end Ledger

/-- Of what the limiter has granted, at least `granted` bytes fall into the
window that ends at `t`; no window has exceeded the limit. -/
def Metered (maxBytes windowMs t granted clock : Nat) (r : SlidingWindowRateLimiter) : Prop :=
  ∃ n : NaiveLimiter, SlidingWindowRateLimiter.Represents r n clock ∧
    n.maxBytes = maxBytes ∧ n.windowMs = windowMs ∧ (∀ t, total windowMs n.log t ≤ maxBytes) ∧
    granted ≤ total windowMs n.log t

namespace Metered

variable {maxBytes windowMs t granted granted' clock clock' now : Nat}
  {r : SlidingWindowRateLimiter}

theorem new (maxBytes windowMs t : Nat) : Metered maxBytes windowMs t 0 0 { maxBytes, windowMs } :=
  ⟨{ maxBytes, windowMs }, SlidingWindowRateLimiter.represents_new maxBytes windowMs, rfl, rfl,
    fun _ => Nat.zero_le _, Nat.zero_le _⟩

theorem granted_le (h : Metered maxBytes windowMs t granted clock r) : granted ≤ maxBytes := by
  obtain ⟨n, -, -, -, hbound, hgranted⟩ := h
  exact hgranted.trans (hbound t)

theorem mono (h : Metered maxBytes windowMs t granted clock r) (hgranted : granted' ≤ granted)
    (hclock : clock ≤ clock') : Metered maxBytes windowMs t granted' clock' r := by
  obtain ⟨n, hn, hmax, hwindow, hbound, hcounted⟩ := h
  refine ⟨n, ?_, hmax, hwindow, hbound, hgranted.trans hcounted⟩
  exact { hn with
    old := fun e he => (hn.old e he).trans hclock
    logOld := fun e he => (hn.logOld e he).trans hclock
    same := fun now hnow => hn.same now (hclock.trans hnow) }

/-- What a request adds if it is granted within the window. -/
theorem tryConsume (h : Metered maxBytes windowMs t granted clock r) (hclock : clock ≤ now)
    {bytes : Nat} {r' : SlidingWindowRateLimiter} {answer : Bool}
    (hasked : r.tryConsume now bytes = (r', answer)) :
    Metered maxBytes windowMs t granted now r' ∧
      (answer = true → Within windowMs t now →
        Metered maxBytes windowMs t (granted + bytes) now r') := by
  obtain ⟨n, hn, rfl, rfl, hbound, hcounted⟩ := h
  obtain ⟨hnext, hanswer⟩ := hn.tryConsume hclock bytes
  rw [hasked] at hnext hanswer
  dsimp only at hnext hanswer
  have hold : ∀ e ∈ n.log, e.time ≤ now := fun e he => (hn.logOld e he).trans hclock
  have hbound' : ∀ t, total n.windowMs (grant n.maxBytes n.windowMs n.log now bytes).1 t ≤
      n.maxBytes := grant_total_le hold hbound
  have hmore : total n.windowMs n.log t ≤
      total n.windowMs (grant n.maxBytes n.windowMs n.log now bytes).1 t := by
    unfold grant
    split
    · rw [total_append]
      exact Nat.le_add_right _ _
    · exact Nat.le_refl _
  refine ⟨⟨_, hnext, rfl, rfl, hbound', hcounted.trans hmore⟩, fun hyes hwithin => ?_⟩
  refine ⟨_, hnext, rfl, rfl, hbound', ?_⟩
  have hgrant : grant n.maxBytes n.windowMs n.log now bytes = (n.log ++ [⟨now, bytes⟩], true) := by
    unfold grant at hanswer ⊢
    split at hanswer
    · rename_i hfits
      rw [if_pos hfits]
    · exact absurd (hanswer.symm.trans hyes) Bool.false_ne_true
  change granted + bytes ≤ total n.windowMs (grant n.maxBytes n.windowMs n.log now bytes).1 t
  rw [hgrant, total_append, total_cons, if_pos hwithin, total_nil]
  exact Nat.add_le_add_right hcounted bytes

end Metered

namespace Ledger

variable {cfg : Settings} {l l' : Ledger} {deed : Deed} {start : Conn} {turn : Turn}
  {quiet maxBytes windowMs t base granted : Nat} {event : Event}

/-- A callback of the timer may still send a probe, if nothing is outstanding. -/
def probeRoom (event : Event) (l : Ledger) : Nat :=
  match event with
  | .retransmissionTimer _ => if l.stream.outstanding = [] then 1 else 0
  | _ => 0

/-- New payload has been granted by the limiter, or was a probe. -/
def Spent (maxBytes windowMs t base granted : Nat) (start : Conn) (turn : Turn) (quiet : Nat)
    (event : Event) (l : Ledger) : Prop :=
  ∃ granted', granted ≤ granted' ∧
    Metered maxBytes windowMs t granted' (turn.now (quiet + l.emitted.length)) l.rateLimiter ∧
    (start.direction = .outbound → (∀ n, Within windowMs t (turn.now n)) →
      l.payload + probeRoom event l + granted ≤ base + granted')

theorem Spent.congr (h : Spent maxBytes windowMs t base granted start turn quiet event l)
    (hmono : Monotone turn.now) (hemitted : l.emitted.length ≤ l'.emitted.length)
    (hlimiter : l'.rateLimiter = l.rateLimiter)
    (hspent : l'.payload + probeRoom event l' ≤ l.payload + probeRoom event l) :
    Spent maxBytes windowMs t base granted start turn quiet event l' := by
  obtain ⟨granted', hle, hmetered, hbound⟩ := h
  refine ⟨granted', hle, ?_, fun hdir hwithin => ?_⟩
  · rw [hlimiter]
    exact hmetered.mono (Nat.le_refl _) (hmono (Nat.add_le_add_left hemitted _))
  · have hbefore := hbound hdir hwithin
    omega

theorem probeRoom_append (event : Event) {items : List Item} (hitems : items ≠ [])
    (hstream : l'.stream.outstanding = l.stream.outstanding ++ items) :
    probeRoom event l' = 0 := by
  unfold probeRoom
  rw [hstream]
  split
  · rw [if_neg (List.append_ne_nil_of_right_ne_nil _ hitems)]
  · rfl

theorem payload_transmit {s s' : State Item Byte} {count : Nat} (queued : count ≤ s.queued.length)
    (moved : SendStream.Step itemFormat s (.transmit count) s') :
    (dataOf s'.history).length = (dataOf s.history).length + count ∧
      s'.outstanding = s.outstanding ++ (s.queued.take count).map .byte := by
  cases moved
  refine ⟨?_, rfl⟩
  have hdata : dataOf ((s.queued.take count).map .byte) = s.queued.take count := dataOf_bytes _
  change (dataOf (s.acknowledged ++ (s.outstanding ++ (s.queued.take count).map .byte))).length = _
  rw [← List.append_assoc, dataOf_append, hdata, List.length_append,
    List.length_take_of_le queued]
  rfl

theorem length_le_place (l : Ledger) (items : List Item) :
    l.emitted.length ≤ (l.place items).length := by
  rw [Ledger.place, List.length_append]
  exact Nat.le_add_right _ _

/-- Every deed keeps the account: new payload is paid by a grant, or by the
probe that is left. -/
theorem Step.spent (step : Step cfg l deed l') (hdue : Conn.Due start turn quiet event l deed)
    (hmono : Monotone turn.now) (htraffic : ∀ rateLimiter, event ≠ .otherTraffic rateLimiter)
    (h : Spent maxBytes windowMs t base granted start turn quiet event l) :
    Spent maxBytes windowMs t base granted start turn quiet event l' := by
  cases step with
  | enqueue opened nonempty moved =>
      cases moved
      exact h
  | @refuse now count rateLimiter opened denied =>
      obtain ⟨granted', hle, hmetered, hbound⟩ := h
      obtain ⟨-, hnow⟩ := hdue
      exact ⟨granted', hle, hnow ▸ (hmetered.tryConsume hnow.ge denied).1, hbound⟩
  | @transmit asked count stream rateLimiter opened pos short queued room flight admitted moved =>
      have hlonger := l.length_le_place ((l.stream.queued.take count).map .byte)
      obtain ⟨hpayload, houtstanding⟩ := payload_transmit queued moved
      have hsome : (l.stream.queued.take count).map Item.byte ≠ [] := by
        rw [Ne, List.map_eq_nil_iff, List.take_eq_nil_iff, not_or]
        exact ⟨Nat.ne_of_gt pos, List.ne_nil_of_length_pos (pos.trans_le queued)⟩
      have hroom := @probeRoom_append l { l with
        stream
        rateLimiter
        emitted := l.place ((l.stream.queued.take count).map .byte)
        paused := l.resumed cfg stream } event _ hsome houtstanding
      obtain ⟨granted', hle, hmetered, hbound⟩ := h
      cases asked with
      | none =>
          -- A reverse connection sends what it likes.
          obtain rfl : rateLimiter = l.rateLimiter := admitted
          have hreverse : start.direction = .reverse := hdue
          exact ⟨granted', hle, hmetered.mono (Nat.le_refl _)
            (hmono (Nat.add_le_add_left hlonger _)),
            fun hdir => absurd (hdir.symm.trans hreverse) (by decide)⟩
      | some now =>
          obtain ⟨-, hnow⟩ := hdue
          have hlater : now ≤ turn.now (quiet +
              (l.place ((l.stream.queued.take count).map .byte)).length) :=
            hnow ▸ hmono (Nat.add_le_add_left hlonger _)
          obtain ⟨hkept, hcounted⟩ := hmetered.tryConsume hnow.ge admitted
          by_cases hwithin : Within windowMs t now
          · refine ⟨granted' + count, hle.trans (Nat.le_add_right _ _),
              (hcounted rfl hwithin).mono (Nat.le_refl _) hlater, fun hdir hall => ?_⟩
            have hbefore := hbound hdir hall
            rw [hroom]
            change (dataOf stream.history).length + 0 + granted ≤ base + (granted' + count)
            unfold payload at hbefore
            omega
          · refine ⟨granted', hle, hkept.mono (Nat.le_refl _) hlater, fun _ hall => ?_⟩
            exact absurd (hnow ▸ hall _) hwithin
  | @probe stream opened idle queued moved =>
      obtain ⟨generation, rfl⟩ := hdue
      obtain ⟨hpayload, houtstanding⟩ := payload_transmit queued moved
      refine h.congr hmono (l.length_le_place _) rfl ?_
      have hroom : probeRoom (.retransmissionTimer generation) l = 1 := if_pos idle
      have hsome : (l.stream.queued.take 1).map Item.byte ≠ [] := by
        rw [Ne, List.map_eq_nil_iff, List.take_eq_nil_iff, not_or]
        exact ⟨Nat.one_ne_zero, List.ne_nil_of_length_pos queued⟩
      rw [hroom, @probeRoom_append l _ (.retransmissionTimer generation) _ hsome houtstanding]
      exact Nat.le_of_eq hpayload
  | @finish stream opened flight moved =>
      cases moved
      refine h.congr hmono (l.length_le_place _) rfl ?_
      have hsome : [Item.fin] ≠ [] := List.cons_ne_nil _ _
      rw [@probeRoom_append l _ event _ hsome rfl]
      change (dataOf (l.stream.acknowledged ++ (l.stream.outstanding ++ [.fin]))).length + 0 ≤ _
      rw [← List.append_assoc, dataOf_append, List.length_append]
      exact Nat.le_add_right _ _
  | again opened some unacked cut near =>
      refine h.congr hmono ?_ rfl (Nat.le_refl _)
      rw [List.length_append]
      exact Nat.le_add_right _ _
  | @acknowledge count congestion stream opened sent growth moved =>
      obtain ⟨seg, rfl, -⟩ := hdue
      cases moved
      refine h.congr hmono (Nat.le_refl _) rfl ?_
      change (dataOf ((l.stream.acknowledged ++ l.stream.outstanding.take count) ++
        l.stream.outstanding.drop count)).length + 0 ≤ _
      rw [List.append_assoc, List.take_append_drop]
      exact Nat.le_refl _
  | reduce opened bound => exact h
  | advertise opened => exact h
  | lend => exact absurd hdue (htraffic _)
  | close opened => exact h

end Ledger

/-- The callback of the timer of the retransmission queue, which may probe. -/
def Event.isProbe : Event → Bool
  | .retransmissionTimer _ => true
  | _ => false

namespace Conn

variable {cfg : Settings} {c c' : Conn} {turn : Turn} {event : Event}
  {maxBytes windowMs t granted clock : Nat}

/-- The payload that the connection has sent, each byte counted once. -/
def sentPayload (c : Conn) : Nat := newPayload c.send.relayIsn (occupied c.sent)

theorem Kept.sentPayload {l : Ledger} (h : c.Kept l) (hextended : l.Extended) :
    c.sentPayload = l.payload := by
  rw [Conn.sentPayload, newPayload, h.emitted, hextended]

theorem probeRoom_le (event : Event) (l : Ledger) :
    Ledger.probeRoom event l ≤ event.isProbe.toNat := by
  cases event with
  | retransmissionTimer generation =>
      change (if l.stream.outstanding = [] then 1 else 0) ≤ 1
      split <;> omega
  | _ => exact Nat.le_refl 0

/-- A callback sends no more new payload than the limiter grants in it, and one
probe. -/
theorem Reachable.spent (h : Reachable cfg c) (hstep : Step cfg c (turn, event) c')
    (hmono : Monotone turn.now) (htraffic : ∀ rateLimiter, event ≠ .otherTraffic rateLimiter)
    (hmetered : Metered maxBytes windowMs t granted clock c.rateLimiter)
    (hclock : ∀ n, clock ≤ turn.now n) :
    ∃ granted' k, granted ≤ granted' ∧
      Metered maxBytes windowMs t granted' (turn.now k) c'.rateLimiter ∧
      (c.direction = .outbound → (∀ n, Within windowMs t (turn.now n)) →
        c'.sentPayload + granted ≤ c.sentPayload + event.isProbe.toNat + granted') := by
  obtain ⟨l, hkept, hextended⟩ := h.exists_ledger (P := Ledger.Extended)
    (Ledger.extended_opening cfg) fun _ _ _ hstep hl => hstep.extended hl
  obtain ⟨quiet, hacts⟩ := h.inv.acts hstep
  obtain ⟨l', hreaches, hkept'⟩ := hacts l hkept
  have hextended' : l'.Extended :=
    hreaches.invariant (fun _ _ _ hl hstep => hstep.2.extended hl) hextended
  have hstart : Ledger.Spent maxBytes windowMs t (l.payload + Ledger.probeRoom event l) granted c
      turn quiet event l :=
    ⟨granted, Nat.le_refl _, by
      rw [hkept.rateLimiter]
      exact hmetered.mono (Nat.le_refl _) (hclock _), fun _ _ => Nat.le_refl _⟩
  obtain ⟨granted', hle, hmetered', hbound⟩ : Ledger.Spent maxBytes windowMs t
      (l.payload + Ledger.probeRoom event l) granted c turn quiet event l' :=
    hreaches.invariant (fun _ _ _ hl hstep => hstep.2.spent hstep.1 hmono htraffic hl) hstart
  refine ⟨granted', _, hle, hkept'.rateLimiter ▸ hmetered', fun hdir hall => ?_⟩
  rw [hkept.sentPayload hextended, hkept'.sentPayload hextended']
  have hroom := probeRoom_le event l
  have hspent := hbound hdir hall
  omega

theorem Opened.sentPayload (h : Opened cfg c) : c.sentPayload = 0 := by
  obtain ⟨isn, window, hkept⟩ := h.kept
  rw [hkept.sentPayload (Ledger.extended_opening cfg isn window _)]
  rfl

end Conn

/-- What the limiter is there for: new payload on outbound connections. -/
def Held.limitedPayload (held : Held) : Nat :=
  match held.conn.direction with
  | .outbound => held.conn.sentPayload
  | .reverse => 0

namespace TcpSession

variable {cfg : Settings} {s s' : TcpSession} {id : ConnId} {label : Turn × SessionEvent}
  {maxBytes windowMs t granted clock : Nat}

/-- The limited payload of one object, none if there is no such object. -/
def payloadOf (s : TcpSession) (id : ConnId) : Nat :=
  match s.objects id with
  | none => 0
  | some held => held.limitedPayload

/-- The sum over the first objects. -/
def payloadBelow (s : TcpSession) : ConnId → Nat
  | 0 => 0
  | id + 1 => s.payloadBelow id + s.payloadOf id

/-- New payload of all outbound connections the session has had. -/
def limitedPayload (s : TcpSession) : Nat := s.payloadBelow s.nextConn

/-- The event is a callback that may send a probe. -/
def isProbe (label : Turn × SessionEvent) : Bool :=
  match label.2 with
  | .callback _ event => event.isProbe
  | _ => false

theorem payloadBelow_congr {n : Nat} (h : ∀ id, id < n → s'.payloadOf id = s.payloadOf id) :
    s'.payloadBelow n = s.payloadBelow n := by
  induction n with
  | zero => rfl
  | succ n ih =>
      rw [payloadBelow, payloadBelow, ih fun id hlt => h id (Nat.lt_succ_of_lt hlt),
        h n (Nat.lt_succ_self n)]

/-- One object changes, and the sum with it. -/
theorem payloadBelow_update {n : Nat} (hlt : id < n)
    (h : ∀ id', id' ≠ id → s'.payloadOf id' = s.payloadOf id') :
    s'.payloadBelow n + s.payloadOf id = s.payloadBelow n + s'.payloadOf id := by
  induction n with
  | zero => exact absurd hlt (Nat.not_lt_zero id)
  | succ n ih =>
      rw [payloadBelow, payloadBelow]
      by_cases hlast : id = n
      · subst hlast
        rw [payloadBelow_congr fun id' hid => h id' (Nat.ne_of_lt hid)]
        omega
      · have hbefore := ih (Nat.lt_of_le_of_ne (Nat.le_of_lt_succ hlt) hlast)
        rw [h n (Ne.symm hlast)]
        omega

theorem payloadOf_congr (h : s'.objects id = s.objects id) : s'.payloadOf id = s.payloadOf id := by
  unfold payloadOf
  rw [h]

theorem Left.payload {held held' : Held} (h : Left held held') :
    held'.limitedPayload = held.limitedPayload := by
  unfold Held.limitedPayload Conn.sentPayload
  rw [h.direction, h.relayIsn, h.sent]

/-- The clock does not go back, neither within a callback nor from one to the
next. -/
def Timed (labels : List (Turn × SessionEvent)) : Prop :=
  (∀ label ∈ labels, Monotone label.1.now) ∧
    labels.Pairwise fun label later => ∀ n m, label.1.now n ≤ later.1.now m

/-- One event spends no more than the limiter grants in it, and one probe. -/
theorem Does.spent {turn : Turn} {occasion : SessionEvent} (h : Refined cfg s)
    (hdoes : Does cfg turn occasion s s') (hmono : Monotone turn.now)
    (hmetered : Metered maxBytes windowMs t granted clock s.rateLimiter)
    (hclock : ∀ n, clock ≤ turn.now n) :
    ∃ granted' clock', granted ≤ granted' ∧
      Metered maxBytes windowMs t granted' clock' s'.rateLimiter ∧
      (clock' = clock ∨ ∃ k, clock' = turn.now k) ∧
      ((∀ n, Within windowMs t (turn.now n)) → s'.limitedPayload + granted ≤
        s.limitedPayload + (isProbe (turn, occasion)).toNat + granted') := by
  cases hdoes with
  | idle objects rateLimiter nextConn =>
      have hsame : ∀ id, s'.payloadOf id = s.payloadOf id := by
        intro id
        obtain hsame | ⟨held, held', hheld, hheld', hleft⟩ := objects id
        · exact payloadOf_congr hsame
        · unfold payloadOf
          rw [hheld, hheld']
          exact hleft.payload
      refine ⟨granted, clock, Nat.le_refl _, rateLimiter ▸ hmetered, .inl rfl, fun _ => ?_⟩
      rw [limitedPayload, limitedPayload, nextConn, payloadBelow_congr fun id _ => hsame id]
      omega
  | opens held opened object others limited rateLimiter nextConn =>
      have hnew : s'.payloadOf s.nextConn = 0 := by
        unfold payloadOf Held.limitedPayload
        rw [object]
        dsimp only
        split
        · exact opened.sentPayload
        · rfl
      refine ⟨granted, clock, Nat.le_refl _, rateLimiter ▸ hmetered, .inl rfl, fun _ => ?_⟩
      rw [limitedPayload, limitedPayload, nextConn, payloadBelow, hnew,
        payloadBelow_congr fun id hlt => payloadOf_congr (others id (Nat.ne_of_lt hlt))]
      omega
  | @runs event id held held' ran =>
      have hreg : held.conn.registered = true := ran.step.1.1
      have hreachable := (h.genuine id held ran.before hreg).1.lend hreg s.rateLimiter
      obtain ⟨granted', k, hle, hmetered', hbound⟩ :=
        hreachable.spent ran.step hmono ran.traffic hmetered hclock
      refine ⟨granted', turn.now k, hle, ran.rateLimiter ▸ hmetered', .inr ⟨k, rfl⟩, fun hall => ?_⟩
      have hupdate := @payloadBelow_update s s' id s.nextConn (h.sound.fresh id held ran.before)
        fun id' hne => payloadOf_congr (ran.others id' hne)
      have hbefore : s.payloadOf id = held.limitedPayload := by
        unfold payloadOf
        rw [ran.before]
      have hafter : s'.payloadOf id = held'.limitedPayload := by
        unfold payloadOf
        rw [ran.after]
      have hdirection : held'.conn.direction = held.conn.direction :=
        (Conn.handle_keeps ran.step.2).direction
      have hprobe : event.isProbe.toNat ≤ (isProbe (turn, occasion)).toNat := by
        cases event with
        | retransmissionTimer generation =>
            rw [ran.timer generation rfl]
            exact Nat.le_refl _
        | _ => exact Nat.zero_le _
      have hspent : held'.limitedPayload + granted ≤
          held.limitedPayload + event.isProbe.toNat + granted' := by
        unfold Held.limitedPayload
        rw [hdirection]
        cases hdir : held.conn.direction with
        | outbound => exact hbound hdir hall
        | reverse =>
            dsimp only
            omega
      rw [limitedPayload, limitedPayload, ran.nextConn]
      omega

/-- The same over a run, within one window of the limiter. -/
theorem run_spent {labels : List (Turn × SessionEvent)} (h : Refined cfg s)
    (hrun : Run (Restrict (Step cfg) Stays) s labels s') (htimed : Timed labels)
    (hmetered : Metered maxBytes windowMs t granted clock s.rateLimiter)
    (hclock : ∀ label ∈ labels, ∀ n, clock ≤ label.1.now n) :
    Refined cfg s' ∧ ∃ granted' clock', granted ≤ granted' ∧
      Metered maxBytes windowMs t granted' clock' s'.rateLimiter ∧
      (clock' = clock ∨ ∃ label ∈ labels, ∃ k, clock' = label.1.now k) ∧
      ((∀ label ∈ labels, ∀ n, Within windowMs t (label.1.now n)) →
        s'.limitedPayload + granted ≤ s.limitedPayload + labels.countP isProbe + granted') := by
  induction hrun with
  | nil => exact ⟨h, granted, clock, Nat.le_refl _, hmetered, .inl rfl, fun _ => Nat.le_refl _⟩
  | @snoc s₁ s₂ before label hbefore hlast ih =>
      have hold : ∀ {label'}, label' ∈ before → label' ∈ before ++ [label] :=
        fun hmem => List.mem_append_left _ hmem
      have hnew : label ∈ before ++ [label] := List.mem_append_right _ (List.mem_singleton_self _)
      obtain ⟨hpairs, -, hcross⟩ := List.pairwise_append.mp htimed.2
      obtain ⟨hrefined, granted₁, clock₁, hle₁, hmetered₁, hclock₁, hbound₁⟩ :=
        ih ⟨fun label' hmem => htimed.1 label' (hold hmem), hpairs⟩
          fun label' hmem => hclock label' (hold hmem)
      have hearlier : ∀ n, clock₁ ≤ label.1.now n := by
        intro n
        rcases hclock₁ with rfl | ⟨label', hmem, k, rfl⟩
        · exact hclock label hnew n
        · exact hcross label' hmem label (List.mem_singleton_self _) k n
      obtain ⟨hdoes, hrefined'⟩ := hrefined.step hlast.1 hlast.2
      obtain ⟨granted₂, clock₂, hle₂, hmetered₂, hclock₂, hbound₂⟩ :=
        hdoes.spent hrefined (htimed.1 label hnew) hmetered₁ hearlier
      refine ⟨hrefined', granted₂, clock₂, hle₁.trans hle₂, hmetered₂, ?_, fun hall => ?_⟩
      · rcases hclock₂ with rfl | ⟨k, rfl⟩
        · exact hclock₁.imp_right fun ⟨label', hmem, k, hk⟩ => ⟨label', hold hmem, k, hk⟩
        · exact .inr ⟨label, hnew, k, rfl⟩
      · have hfirst := hbound₁ fun label' hmem => hall label' (hold hmem)
        have hsecond : s₂.limitedPayload + granted₁ ≤
            s₁.limitedPayload + (isProbe label).toNat + granted₂ := hbound₂ (hall label hnew)
        have hcount : [label].countP isProbe = (isProbe label).toNat := by
          cases hprobe : isProbe label <;> simp [hprobe]
        rw [List.countP_append, hcount]
        omega

/-- Whatever the connections of a session are and however they share the
limiter: the new payload that goes out on outbound connections within one window
of time is at most `RATE_LIMIT_KBPS` in bytes, and a byte for each
retransmission timer that fires. -/
theorem payload_le_rate {vmIP : IPv4} {before during : List (Turn × SessionEvent)} {t : Nat}
    (hbefore : Run (Restrict (Step cfg) Stays) (start vmIP cfg.rateLimiter) before s)
    (hduring : Run (Restrict (Step cfg) Stays) s during s')
    (htimed : Timed (before ++ during))
    (hwindow : ∀ label ∈ during, ∀ n, Within 1000 t (label.1.now n)) :
    s'.limitedPayload ≤ s.limitedPayload + cfg.rateLimitBps + during.countP isProbe := by
  obtain ⟨hpast, hpresent, hcross⟩ := List.pairwise_append.mp htimed.2
  obtain ⟨hrefined, granted, clock, -, hmetered, hclock, -⟩ :=
    run_spent (refined_start cfg vmIP cfg.rateLimiter) hbefore
      ⟨fun label hmem => htimed.1 label (List.mem_append_left _ hmem), hpast⟩
      (Metered.new cfg.rateLimitBps 1000 t) fun _ _ _ => Nat.zero_le _
  have hearlier : ∀ label ∈ during, ∀ n, clock ≤ label.1.now n := by
    intro label hmem n
    rcases hclock with rfl | ⟨label', hmem', k, rfl⟩
    · exact Nat.zero_le _
    · exact hcross label' hmem' label hmem k n
  obtain ⟨-, granted', clock', -, hmetered', -, hbound⟩ := run_spent hrefined hduring
    ⟨fun label hmem => htimed.1 label (List.mem_append_right _ hmem), hpresent⟩
    (hmetered.mono (Nat.zero_le granted) (Nat.le_refl clock)) hearlier
  have hspent := hbound hwindow
  have hgranted := hmetered'.granted_le
  omega

theorem stays_of_registered {held : Held} {event : EndpointEvent} (h : Sound s)
    (hheld : s.objects id = some held) (hreg : held.conn.registered = true) :
    ¬s.Strays (.endpoint id event) := by
  rintro ⟨held', id', -, hheld', hfind, hne, -⟩
  obtain rfl := Option.some.inj (hheld.symm.trans hheld')
  exact hne (Option.some.inj (hfind.symm.trans (h.listed id held hheld hreg)))

/-- A connection to a server, up to its handshake. -/
def shaken : List (Turn × SessionEvent) :=
  [({}, .segment 7#32 (toServer 99#32 0#32 true false false)),
    ({}, .segment 0#32 (toServer 100#32 8#32 false true false))]

/-- Three bytes from the server, five milliseconds later. -/
def answered : List (Turn × SessionEvent) :=
  [({ now := fun _ => 5 }, .endpoint 0 (.data [1, 2, 3]))]

theorem payload_le_rate_answered : ∃ s s' : TcpSession, s'.limitedPayload = 3 ∧
    s'.limitedPayload ≤
      s.limitedPayload + ({} : Settings).rateLimitBps + answered.countP isProbe := by
  have hexecutes : ((start 0x0a00020f#32 ({} : Settings).rateLimiter).execute {} shaken).any
      (fun s => ((s.objects 0).any fun held => held.conn.registered) &&
        (s.execute {} answered).any fun s' => decide (s'.limitedPayload = 3)) = true := by
    decide +kernel
  obtain ⟨s, hs, hrest⟩ := (Option.any_eq_true _ _).mp hexecutes
  obtain ⟨hobject, hanswered⟩ := (Bool.and_eq_true _ _).mp hrest
  obtain ⟨held, hheld, hreg⟩ := (Option.any_eq_true _ _).mp hobject
  obtain ⟨s', hs', hpayload⟩ := (Option.any_eq_true _ _).mp hanswered
  have hbefore : Run (Restrict (Step {}) Stays) _ shaken s :=
    (run_of_execute hs).restrict fun label hmem s => by
      simp only [shaken, List.mem_cons, List.not_mem_nil, or_false] at hmem
      obtain rfl | rfl := hmem <;> exact not_false
  have hstays : s.Stays ({ now := fun _ => 5 }, .endpoint 0 (.data [1, 2, 3])) :=
    stays_of_registered (refined_of_run hbefore).sound hheld hreg
  have hduring : Run (Restrict (Step {}) Stays) s answered s' :=
    .single ⟨hstays, Run.single_iff.mp (run_of_execute hs')⟩
  refine ⟨s, s', of_decide_eq_true hpayload, payload_le_rate (t := 5) hbefore hduring ⟨?_, ?_⟩ ?_⟩
  · intro label hmem
    simp only [shaken, answered, List.cons_append, List.nil_append, List.mem_cons,
      List.not_mem_nil, or_false] at hmem
    obtain rfl | rfl | rfl := hmem <;> exact monotone_const
  · simp [shaken, answered]
  · intro label hmem n
    obtain rfl := List.mem_singleton.mp hmem
    exact ⟨Nat.le_refl 5, Nat.lt_add_of_pos_right (by decide)⟩

end TcpSession

end RootlessRelay
