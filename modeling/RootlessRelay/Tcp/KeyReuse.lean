import RootlessRelay.Tcp.Session

/-!
# Keys that are used again

The handlers of an endpoint look up most of what they act on by the key of their
connection. While that connection is held, they find it; an endpoint that
outlives the entry finds nothing, or whatever the key has come to name.

The handlers are not written alike. Some hold the object itself, some compare
what they find with it, and some act on whatever is there; `ByKey` is the table
of the last kind. An event of such a handler acts on another connection exactly
if its own is gone and the key has been used again.
-/

namespace RootlessRelay

open Transition

namespace TcpSession

variable {cfg : Settings} {turn : Turn} {s s' : TcpSession} {id id' : ConnId} {key : MapKey}
  {held held' : Held} {c : Conn} {f : Conn → Outcome Conn} {calls : Nat} {test : Conn → Bool}
  {event : EndpointEvent}

/-- An event of an endpoint leaves every connection but its own as it is. -/
def ActsOnOwn (s : TcpSession) (s' : TcpSession) : SessionEvent → Prop
  | .endpoint id _ => ∀ id', id' ≠ id → s'.objects id' = s.objects id'
  | _ => True

/-- The handler goes by the key alone, and acts on such a connection. -/
def ByKey (direction : Direction) (occupant : Conn) : EndpointEvent → Prop
  | .drained => False
  | .ended => direction = .outbound ∧ occupant.state ≠ .closed
  | .data _ | .failed | .localClose | .abandoned => True

/-- An event of an endpoint whose connection is gone, and whose key names
another one. -/
def Strays (s : TcpSession) : SessionEvent → Prop
  | .endpoint id event => ∃ held id' held', s.objects id = some held ∧
      s.find held.conn.mapKey = some id' ∧ id' ≠ id ∧ s.objects id' = some held' ∧
      ByKey held.conn.direction held'.conn event
  | _ => False

theorem objects_note {f : Held → Held} (hne : id' ≠ id) : (s.note id f).objects id' = s.objects id' := by
  unfold note
  split
  · rfl
  · rw [objects_setObject, if_neg hne]

@[simp] theorem find_note {f : Held → Held} : (s.note id f).find key = s.find key := by
  unfold note
  split
  · rfl
  · exact find_setObject

/-- Running a function of an object leaves what a key finds, or takes it away. -/
theorem find_act (key : MapKey) : (s.act id calls f).1.find key = none ∨
    (s.act id calls f).1.find key = s.find key := by
  have hput : ∀ held c, (s.put id held calls c).find key = none ∨
      (s.put id held calls c).find key = s.find key := by
    intro held c
    rw [find_put]
    split
    · exact .inl rfl
    · exact .inr rfl
  unfold act
  split
  · exact .inr rfl
  · split
    · exact hput _ _
    · exact hput _ _

/-- The key finds the object itself, or nothing. -/
def Undisplaced (s : TcpSession) (id : ConnId) (key : MapKey) : Prop :=
  ∀ id', s.find key = some id' → id' = id

theorem Undisplaced.act (h : s.Undisplaced id key) : (s.act id' calls f).1.Undisplaced id key := by
  intro found hfound
  obtain hnone | hsame := @find_act s id' f calls key
  · rw [hnone] at hfound
    cases hfound
  · exact h found (hsame ▸ hfound)

theorem Undisplaced.onOccupant (h : s.Undisplaced id key) :
    (s.onOccupant key test f).1.Undisplaced id key := by
  unfold TcpSession.onOccupant
  split
  · exact h
  · split
    · exact h.act
    · exact h

theorem objects_onOccupant (h : s.Undisplaced id key) (hne : id' ≠ id) :
    (s.onOccupant key test f).1.objects id' = s.objects id' := by
  unfold TcpSession.onOccupant
  split
  · rfl
  · rename_i found hfind
    split
    · rw [h found hfind]
      exact objects_act hne
    · rfl

theorem objects_onOwn (hne : id' ≠ id) : (s.onOwn id key f).1.objects id' = s.objects id' := by
  unfold onOwn
  split
  · exact objects_act hne
  · rfl

theorem onSocket_actsOnOwn (h : s.Undisplaced id key) (hne : id' ≠ id) :
    (s.onSocket cfg turn id key event).1.objects id' = s.objects id' := by
  cases event with
  | data data => exact objects_onOccupant h hne
  | ended =>
      have hnoted : Undisplaced (s.note id fun held =>
          { held with conn.send.sourceEnded := true }) id key :=
        fun found hfound => h found (find_note.symm.trans hfound)
      exact (objects_onOccupant hnoted hne).trans (objects_note hne)
  | failed => exact objects_onOccupant h hne
  | drained => exact objects_onOwn hne
  | localClose => rfl
  | abandoned => rfl

theorem onStreams_actsOnOwn (h : s.Undisplaced id key) (hne : id' ≠ id) :
    (s.onStreams cfg turn id key event).1.objects id' = s.objects id' := by
  have hnote : ∀ {s : TcpSession} {f : Held → Held}, s.Undisplaced id key →
      (s.note id f).Undisplaced id key :=
    fun h found hfound => h found (find_note.symm.trans hfound)
  cases event with
  | data data =>
      exact (objects_onOccupant (hnote h.onOccupant) hne).trans
        ((objects_note hne).trans (objects_onOccupant h hne))
  | ended => exact (objects_onOwn hne).trans (objects_note hne)
  | failed => rfl
  | drained => exact objects_onOwn hne
  | localClose => exact (objects_onOccupant (hnote h) hne).trans (objects_note hne)
  | abandoned => exact objects_onOccupant h hne

/-- How often functions of an object have been called, 0 for none. -/
def callsOf (s : TcpSession) (id : ConnId) : Nat := ((s.objects id).map Held.calls).getD 0

theorem callsOf_act (hheld : s.objects id = some held) :
    (s.act id calls f).1.callsOf id = s.callsOf id + calls := by
  have hput : ∀ c, (s.put id held calls c).callsOf id = s.callsOf id + calls := by
    intro c
    unfold callsOf
    rw [objects_put, if_pos rfl, hheld]
    rfl
  unfold act
  rw [hheld]
  dsimp only
  split
  · exact hput _
  · exact hput _

theorem callsOf_le_act (s : TcpSession) (id' : ConnId) :
    s.callsOf id' ≤ (s.act id calls f).1.callsOf id' := by
  by_cases hsame : id' = id
  · subst hsame
    cases hheld : s.objects id' with
    | none =>
        unfold act
        rw [hheld]
    | some held =>
        rw [callsOf_act hheld]
        exact Nat.le_add_right _ _
  · unfold callsOf
    rw [objects_act hsame]

theorem callsOf_le_onOccupant (s : TcpSession) (id' : ConnId) :
    s.callsOf id' ≤ (s.onOccupant key test f).1.callsOf id' := by
  unfold onOccupant
  split
  · exact Nat.le_refl _
  · split
    · exact callsOf_le_act s id'
    · exact Nat.le_refl _

theorem callsOf_note {f : Held → Held} (hne : id' ≠ id) :
    (s.note id f).callsOf id' = s.callsOf id' := by
  unfold callsOf
  rw [objects_note hne]

/-- What the key finds is acted on. -/
theorem callsOf_onOccupant (hfind : s.find key = some id') (hheld : s.objects id' = some held')
    (htest : test held'.conn = true) :
    s.callsOf id' < (s.onOccupant key test f).1.callsOf id' := by
  have hany : (s.objects id').any (fun held => test held.conn) = true := by
    rw [hheld]
    exact htest
  unfold onOccupant
  rw [hfind]
  dsimp only
  rw [if_pos hany, callsOf_act hheld]
  exact Nat.lt_succ_self _

theorem objects_ne_of_calls (h : s.callsOf id < s'.callsOf id) : s'.objects id ≠ s.objects id := by
  intro hsame
  unfold callsOf at h
  rw [hsame] at h
  exact Nat.lt_irrefl _ h

/-- An event of a socket whose key finds another connection touches that one
exactly in the cases of `ByKey`. -/
theorem onSocket_strays_iff (hfind : s.find key = some id') (hne : id' ≠ id)
    (hheld' : s.objects id' = some held')
    (hdir : held.conn.direction = .outbound) (hcan : held.CanEmit event) :
    (∀ other, other ≠ id → (s.onSocket cfg turn id key event).1.objects other = s.objects other) ↔
      ¬ByKey .outbound held'.conn event := by
  have hstrays : s.callsOf id' < (s.onSocket cfg turn id key event).1.callsOf id' →
      ¬∀ other, other ≠ id → (s.onSocket cfg turn id key event).1.objects other = s.objects other :=
    fun hcalls hall => objects_ne_of_calls hcalls (hall id' hne)
  cases event with
  | data data =>
      exact iff_of_false (hstrays (callsOf_onOccupant hfind hheld' rfl)) (not_not_intro trivial)
  | ended =>
      have hnoted : (s.note id fun held =>
          { held with conn.send.sourceEnded := true }).objects id' = some held' :=
        (objects_note hne).trans hheld'
      by_cases hclosed : held'.conn.state = .closed
      · refine iff_of_true (fun other hother => ?_) (fun h => h.2 hclosed)
        unfold onSocket onOccupant
        dsimp only
        rw [find_note, hfind]
        dsimp only
        rw [hnoted, if_neg (by simp [hclosed])]
        exact objects_note hother
      · refine iff_of_false (hstrays ?_) (not_not_intro ⟨rfl, hclosed⟩)
        have hcalls := @callsOf_onOccupant (s.note id fun held =>
          { held with conn.send.sourceEnded := true }) id' key held'
          (fun c => { c with send.pendingFin := true }.trySend cfg turn)
          (fun c => c.state ≠ .closed) (find_note.trans hfind) hnoted (by simpa using hclosed)
        rwa [callsOf_note hne] at hcalls
  | failed =>
      exact iff_of_false (hstrays (callsOf_onOccupant hfind hheld' rfl)) (not_not_intro trivial)
  | drained => exact iff_of_true (fun other hother => objects_onOwn hother) not_false
  | localClose =>
      have hreverse := hcan.1
      rw [hdir] at hreverse
      cases hreverse
  | abandoned =>
      have hreverse : held.conn.direction = .reverse := hcan
      rw [hdir] at hreverse
      cases hreverse

/-- The same for the streams of a reverse connection. -/
theorem onStreams_strays_iff (hfind : s.find key = some id') (hne : id' ≠ id)
    (hheld' : s.objects id' = some held')
    (hdir : held.conn.direction = .reverse) (hcan : held.CanEmit event) :
    (∀ other, other ≠ id → (s.onStreams cfg turn id key event).1.objects other = s.objects other) ↔
      ¬ByKey .reverse held'.conn event := by
  have hstrays : s.callsOf id' < (s.onStreams cfg turn id key event).1.callsOf id' →
      ¬∀ other, other ≠ id → (s.onStreams cfg turn id key event).1.objects other = s.objects other :=
    fun hcalls hall => objects_ne_of_calls hcalls (hall id' hne)
  cases event with
  | data data =>
      refine iff_of_false (hstrays ?_) (not_not_intro trivial)
      have hbumped := @callsOf_onOccupant s id' key held' (fun c => .ok c.bumpActivity)
        (fun _ => true) hfind hheld' rfl
      refine Nat.lt_of_lt_of_le hbumped (Nat.le_trans ?_ (callsOf_le_onOccupant _ id'))
      exact Nat.le_of_eq (callsOf_note hne).symm
  | ended =>
      refine iff_of_true (fun other hother => ?_) fun h => ?_
      · exact (objects_onOwn hother).trans (objects_note hother)
      · cases h.1
  | failed =>
      have houtbound : held.conn.direction = .outbound := hcan
      rw [hdir] at houtbound
      cases houtbound
  | drained => exact iff_of_true (fun other hother => objects_onOwn hother) not_false
  | localClose =>
      refine iff_of_false (hstrays ?_) (not_not_intro trivial)
      have hcalls := @callsOf_onOccupant (s.note id fun held => { held with clientClosed := true })
        id' key held' (fun c => c.onLocalClose cfg turn) (fun _ => true) (find_note.trans hfind)
        ((objects_note hne).trans hheld') rfl
      rwa [callsOf_note hne] at hcalls
  | abandoned =>
      exact iff_of_false (hstrays (callsOf_onOccupant hfind hheld' rfl)) (not_not_intro trivial)

/-- An event acts on its own connection exactly if it does not stray. -/
theorem onEndpoint_iff (h : Sound s) (hheld : s.objects id = some held) (hcan : held.CanEmit event) :
    (∀ other, other ≠ id → (s.onEndpoint cfg turn id event).1.objects other = s.objects other) ↔
      ¬s.Strays (.endpoint id event) := by
  by_cases hplace : s.Undisplaced id held.conn.mapKey
  · refine iff_of_true (fun other hother => ?_) ?_
    · unfold onEndpoint
      rw [hheld]
      dsimp only
      cases held.conn.direction with
      | outbound => exact onSocket_actsOnOwn hplace hother
      | reverse => exact onStreams_actsOnOwn hplace hother
    · rintro ⟨held', id', -, hheld', hfind, hne, -⟩
      obtain rfl := Option.some.inj (hheld.symm.trans hheld')
      exact hne (hplace id' hfind)
  · unfold Undisplaced at hplace
    obtain ⟨id', hplace⟩ := not_forall.mp hplace
    obtain ⟨hfind, hne⟩ := Classical.not_imp.mp hplace
    obtain ⟨held', hheld', -⟩ := h.entries _ id' hfind
    have hstrays : s.Strays (.endpoint id event) ↔ ByKey held.conn.direction held'.conn event := by
      constructor
      · rintro ⟨held₁, id₁, held₁', hheld₁, hfind₁, -, hheld₁', hreaches⟩
        obtain rfl := Option.some.inj (hheld.symm.trans hheld₁)
        obtain rfl := Option.some.inj (hfind.symm.trans hfind₁)
        obtain rfl := Option.some.inj (hheld'.symm.trans hheld₁')
        exact hreaches
      · exact fun hreaches => ⟨held, id', held', hheld, hfind, hne, hheld', hreaches⟩
    rw [hstrays]
    unfold onEndpoint
    rw [hheld]
    dsimp only
    cases hdir : held.conn.direction with
    | outbound => exact onSocket_strays_iff hfind hne hheld' hdir hcan
    | reverse => exact onStreams_strays_iff hfind hne hheld' hdir hcan

theorem actsOnOwn_iff {label : Turn × SessionEvent} (h : Sound s) (hstep : Step cfg s label s') :
    ActsOnOwn s s' label.2 ↔ ¬s.Strays label.2 := by
  obtain ⟨turn, event⟩ := label
  obtain ⟨henabled, hhandle⟩ := hstep
  cases event with
  | endpoint id event =>
      obtain ⟨held, hheld, hcan⟩ := henabled
      have hafter : (s.onEndpoint cfg turn id event).1 = s' := congrArg Prod.fst hhandle
      rw [← onEndpoint_iff h hheld hcan, hafter]
      rfl
  | segment | connect | callback | forgetPort => exact iff_of_true trivial not_false

/-- In a run every event of an endpoint acts on its own connection only, exactly
if none whose handler goes by the key occurs after the key has come to name
another connection. -/
theorem run_actsOnOwn_iff {vmIP : IPv4} {rateLimiter : SlidingWindowRateLimiter}
    {labels : List (Turn × SessionEvent)} :
    Run (fun s label s' => Step cfg s label s' ∧ ActsOnOwn s s' label.2) (start vmIP rateLimiter)
        labels s ↔
      Run (Restrict (Step cfg) fun s label => ¬s.Strays label.2) (start vmIP rateLimiter) labels s :=
  Run.restrict_iff (sound_start vmIP rateLimiter) (fun _ _ _ hsound hstep _ => hsound.step hstep)
    fun _ _ _ hsound hstep => actsOnOwn_iff hsound hstep

/-- A segment of the VM to a server. -/
def toServer (seqNum ackNum : Seq) (syn ack fin : Bool) : VMSegment where
  srcIP := 0x0a00020f#32
  srcPort := 5000
  dstIP := 0xc0000201#32
  dstPort := 80
  seqNum := seqNum
  ackNum := ackNum
  syn := syn
  ack := ack
  fin := fin
  window := 1000#16
  payload := []
  payload_fits := VMSegment.empty_fits

/-- A connection that both sides end, and a second one from the same port. -/
def reusedPort : List (Turn × SessionEvent) :=
  [({}, .segment 7#32 (toServer 99#32 0#32 true false false)),
    ({}, .segment 0#32 (toServer 100#32 8#32 false true false)),
    ({}, .endpoint 0 .ended),
    ({}, .segment 0#32 (toServer 100#32 9#32 false true true)),
    ({}, .callback 0 .removalTimer),
    ({}, .segment 50#32 (toServer 500#32 0#32 true false false))]

/-- The session behind these events: the first object is closed, the key names
the second. -/
theorem exists_reused : ∃ s, Run (Step {}) (start 0x0a00020f#32 Conn.exampleReverse.rateLimiter)
    reusedPort s ∧ ∃ held, s.objects 0 = some held ∧ held.conn.direction = .outbound ∧
      held.conn.state = .closed ∧ s.find held.conn.mapKey = some 1 := by
  have hexecutes : ((start 0x0a00020f#32 Conn.exampleReverse.rateLimiter).execute {} reusedPort).any
      (fun s => (s.objects 0).any fun held => decide (held.conn.direction = .outbound ∧
        held.conn.state = .closed ∧ s.find held.conn.mapKey = some 1)) = true := by
    decide +kernel
  obtain ⟨s, hs, hany⟩ := (Option.any_eq_true _ _).mp hexecutes
  obtain ⟨held, hheld, hparts⟩ := (Option.any_eq_true _ _).mp hany
  exact ⟨s, run_of_execute hs, held, hheld, of_decide_eq_true hparts⟩

/-- The socket of the first connection fails: the second is aborted. -/
theorem stale_failure : ∃ s s', Run (Step {}) (start 0x0a00020f#32 Conn.exampleReverse.rateLimiter)
    reusedPort s ∧ Step {} s ({}, .endpoint 0 .failed) s' ∧
    ¬ActsOnOwn s s' (.endpoint 0 .failed) := by
  obtain ⟨s, hrun, held, hheld, hdir, -, hfind⟩ := exists_reused
  have hsound : Sound s := hrun.invariant (fun _ _ _ h hstep => h.step hstep) (sound_start _ _)
  obtain ⟨held', hheld', -⟩ := hsound.entries _ 1 hfind
  have hcan : held.CanEmit .failed := hdir
  have hstrays : s.Strays (.endpoint 0 .failed) :=
    ⟨held, 1, held', hheld, hfind, Nat.one_ne_zero, hheld', trivial⟩
  have hstep : Step {} s ({}, .endpoint 0 .failed) (s.onEndpoint {} {} 0 .failed).1 := by
    refine ⟨⟨held, hheld, hcan⟩, Prod.ext rfl ?_⟩
    change (s.onEndpoint {} {} 0 .failed).2 = none
    unfold onEndpoint
    rw [hheld]
    dsimp only
    rw [hdir]
    exact onOccupant_ok fun c => ⟨_, rfl⟩
  exact ⟨s, _, hrun, hstep, fun howns => (actsOnOwn_iff hsound hstep).mp howns hstrays⟩

end TcpSession

end RootlessRelay
