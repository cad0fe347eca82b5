import RootlessRelay.Udp.FlowManager

/-!
# The sockets of the flow manager

Every socket `createFlow` makes is either the socket of exactly one flow in the
map or has been closed exactly once: flows leave the map only through
`removeFlow`, which closes the socket it drops. The history of effects is kept
beside the manager, so that closings can be counted along a run.

`Ledger` is the invariant, with one lemma for each method. Beside the sockets
the module bounds the map: a datagram is refused only when the map is full of
flows none of which is idle, the entries that a cleanup leaves are those used
within the idle time, and a use is always the time of some event of the run.
-/

namespace RootlessRelay

namespace UDPFlowManager

open InsertionMap Transition

/-- A manager with everything it has done, from its first effect on. -/
structure Observed where
  manager : UDPFlowManager := {}
  history : List FlowEffect := []

variable (cfg : RelaySettings)

/-- A step of the manager, whose effects are entered into the history. -/
def ObservedStep (o : Observed) (event : Event) (o' : Observed) : Prop :=
  o' = ⟨(o.manager.handle cfg event).1, o.history ++ (o.manager.handle cfg event).2⟩

/-- What the clock shows during a call or an event, where the code looks at it. -/
def Event.time : Event → Option Nat
  | .send env _ _ => some env.now
  | .message now _ _ _ _ => some now
  | .cleanup now => some now
  | .socketError _ => none
  | .close => none

/-- The socket of some flow in the map, which is the one place where it can be
found. -/
def Live (m : UDPFlowManager) (id : FlowId) : Prop := ∃ key, get m.flows key = some id

/-- No datagram is put on a socket that has been closed before. -/
def SendsOpen (history : List FlowEffect) : Prop :=
  ∀ before after id payload port address,
    history = before ++ .send id payload port address :: after → .close id ∉ before

/-- The books of a manager: its map has one entry for each key, a live socket
has never been closed, every other one has been closed once. -/
structure Ledger (m : UDPFlowManager) (history : List FlowEffect) : Prop where
  coherent : Coherent m
  nodup : (keys m.flows).Nodup
  live : ∀ id, m.Live id → history.count (.close id) = 0
  closed : ∀ id, id < m.objects.length → ¬m.Live id → history.count (.close id) = 1
  fresh : ∀ id, m.objects.length ≤ id → history.count (.close id) = 0
  sends : SendsOpen history

variable {cfg} {m m' : UDPFlowManager} {history effects : List FlowEffect}

theorem Coherent.live_lt (h : Coherent m) {id : FlowId} (hlive : m.Live id) :
    id < m.objects.length := by
  obtain ⟨key, hget⟩ := hlive
  obtain ⟨flow, hflow, -⟩ := h.entry key id hget
  exact (List.getElem?_eq_some_iff.mp hflow).1

/-- A socket serves one key, since its flow object has one. -/
theorem Coherent.key_unique (h : Coherent m) {id : FlowId} {key key' : FlowKey}
    (hget : get m.flows key = some id) (hget' : get m.flows key' = some id) : key = key' := by
  obtain ⟨flow, hflow, hkey⟩ := h.entry key id hget
  obtain ⟨flow', hflow', hkey'⟩ := h.entry key' id hget'
  obtain rfl := Option.some.inj (hflow.symm.trans hflow')
  exact hkey.symm.trans hkey'

/-- Sends on open sockets, after a history of such sends. -/
theorem sendsOpen_append (h : SendsOpen history)
    (hnew : ∀ before after id payload port address,
      effects = before ++ .send id payload port address :: after →
        .close id ∉ history ++ before) : SendsOpen (history ++ effects) := by
  intro before after id payload port address heq
  rcases List.append_eq_append_iff.mp heq with ⟨rest, hbefore, heffects⟩ | ⟨rest, hhistory, hsend⟩
  · rw [hbefore]
    exact hnew rest after id payload port address heffects
  · cases rest with
    | nil =>
        rw [List.append_nil] at hhistory
        have := hnew [] after id payload port address (by simpa using hsend.symm)
        rwa [List.append_nil, hhistory] at this
    | cons first rest =>
        obtain ⟨rfl, -⟩ := List.cons.inj hsend
        exact h before rest id payload port address hhistory

/-- Effects that put nothing on a socket, closings included. -/
theorem SendsOpen.quiet (h : SendsOpen history) (hquiet : sent effects = []) :
    SendsOpen (history ++ effects) := by
  refine sendsOpen_append h fun before after id payload port address heq => ?_
  rw [heq, sent_append] at hquiet
  exact absurd (List.append_eq_nil_iff.mp hquiet).2 (List.cons_ne_nil _ _)

/-- Reports leave the books as they are: they neither send nor close. -/
theorem Ledger.report (h : Ledger m history) (hquiet : sent effects = [])
    (hclose : ∀ id, effects.count (.close id) = 0) : Ledger m (history ++ effects) := by
  have hcount : ∀ id, (history ++ effects).count (.close id) = history.count (.close id) := by
    intro id
    rw [List.count_append, hclose, Nat.add_zero]
  exact ⟨h.coherent, h.nodup, fun id hlive => (hcount id).trans (h.live id hlive),
    fun id hlt hdead => (hcount id).trans (h.closed id hlt hdead),
    fun id hle => (hcount id).trans (h.fresh id hle), h.sends.quiet hquiet⟩

theorem Ledger.counters (h : Ledger m history) (dropped errors : Nat) :
    Ledger { m with droppedPackets := dropped, sendErrors := errors } history :=
  ⟨h.coherent.counters dropped errors, h.nodup, h.live, h.closed, h.fresh, h.sends⟩

/-- A newer `lastSeen`, and possibly a newer cache: neither opens or closes a
socket. -/
theorem Ledger.touch (h : Ledger m history) {lastFlow : Option FlowId} {objects : List Flow}
    (hcoherent : Coherent { m with lastFlow, objects })
    (hlength : objects.length = m.objects.length) :
    Ledger { m with lastFlow, objects } history := by
  refine ⟨hcoherent, h.nodup, h.live, fun id hlt hdead => h.closed id ?_ hdead,
    fun id hle => h.fresh id ?_, h.sends⟩
  · exact hlt.trans_eq hlength
  · exact hlength.symm.trans_le hle

/-- Removing a flow closes its socket, for the first time. -/
theorem Ledger.removeFlow (h : Ledger m history) (key : FlowKey) :
    Ledger (m.removeFlow key).1 (history ++ (m.removeFlow key).2) := by
  have hcoherent := h.coherent.removeFlow key
  unfold UDPFlowManager.removeFlow at hcoherent ⊢
  split at hcoherent
  · rw [List.append_nil]
    exact h
  rename_i id hid
  have hlive : ∀ i, (∃ k, get (delete m.flows key) k = some i) ↔ m.Live i ∧ i ≠ id := by
    intro i
    constructor
    · rintro ⟨k, hget⟩
      rw [get_delete] at hget
      split at hget
      · cases hget
      · rename_i hne
        refine ⟨⟨k, hget⟩, ?_⟩
        rintro rfl
        exact hne (h.coherent.key_unique hid hget)
    · rintro ⟨⟨k, hget⟩, hne⟩
      refine ⟨k, ?_⟩
      rw [get_delete, if_neg]
      · exact hget
      · rintro rfl
        exact hne (Option.some.inj (hget.symm.trans hid))
  have hcount : ∀ i, i ≠ id → (history ++ [FlowEffect.close id]).count (.close i) =
      history.count (.close i) := by
    intro i hne
    simp [List.count_append, Ne.symm hne]
  refine ⟨hcoherent, keys_delete_nodup h.nodup key, fun i hi => ?_, fun i hlt hdead => ?_,
    fun i hle => ?_, h.sends.quiet rfl⟩
  · obtain ⟨hi, hne⟩ := (hlive i).mp hi
    exact (hcount i hne).trans (h.live i hi)
  · by_cases hne : i = id
    · subst hne
      simp [List.count_append, h.live i ⟨key, hid⟩]
    · exact (hcount i hne).trans (h.closed i hlt fun hi => hdead ((hlive i).mpr ⟨hi, hne⟩))
  · have hne : i ≠ id := by
      rintro rfl
      exact Nat.not_lt.mpr hle (h.coherent.live_lt ⟨key, hid⟩)
    exact (hcount i hne).trans (h.fresh i hle)

/-- The cleanup removes flows one after another. -/
theorem Ledger.cleanupLoop (now : Nat) (entries : List (FlowKey × FlowId))
    (h : Ledger m history) :
    Ledger (cleanupLoop cfg now entries m).1 (history ++ (cleanupLoop cfg now entries m).2) := by
  induction entries generalizing m history with
  | nil =>
      change Ledger m (history ++ [])
      rw [List.append_nil]
      exact h
  | cons entry rest ih =>
      unfold UDPFlowManager.cleanupLoop
      split
      · change Ledger _ (history ++ (_ ++ _))
        rw [← List.append_assoc]
        exact ih (h.removeFlow entry.1)
      · exact ih h

theorem Ledger.cleanup (h : Ledger m history) (cfg : RelaySettings) (now : Nat) :
    Ledger (m.cleanup cfg now).1 (history ++ (m.cleanup cfg now).2) :=
  h.cleanupLoop now m.flows

theorem Ledger.handleFlowError (h : Ledger m history) (key : FlowKey) :
    Ledger (m.handleFlowError key).1 (history ++ (m.handleFlowError key).2) := by
  unfold UDPFlowManager.handleFlowError
  split
  · rw [List.append_nil]
    exact h
  · rename_i id hid
    change Ledger _ (history ++ (_ ++ _))
    rw [← List.append_assoc]
    refine ((h.counters m.droppedPackets (m.sendErrors + 1)).report ?_ ?_).removeFlow key
    · cases m.objects[id]? <;> rfl
    · intro i
      cases m.objects[id]? <;> simp

theorem Ledger.removeFlows (ks : List FlowKey) (acc : UDPFlowManager × List FlowEffect)
    (h : Ledger acc.1 (history ++ acc.2)) :
    Ledger (removeFlows acc ks).1 (history ++ (removeFlows acc ks).2) := by
  induction ks generalizing acc with
  | nil => exact h
  | cons key rest ih =>
      rw [removeFlows_cons]
      apply ih
      rw [← List.append_assoc]
      exact h.removeFlow key

theorem Ledger.close (h : Ledger m history) : Ledger m.close.1 (history ++ m.close.2) := by
  rw [close_eq]
  refine Ledger.removeFlows _ _ ?_
  rw [List.append_nil]
  exact h

/-- A new socket has never been closed. -/
theorem Ledger.createFlow (h : Ledger m history) (flowInfo : FlowInfo) (now : Nat)
    (hnew : get m.flows flowInfo.toFlowKey = none) :
    Ledger (m.createFlow flowInfo.toFlowKey flowInfo now) history := by
  have hlength : (m.createFlow flowInfo.toFlowKey flowInfo now).objects.length =
      m.objects.length + 1 := List.length_append
  have hlive : ∀ i, (m.createFlow flowInfo.toFlowKey flowInfo now).Live i ↔
      m.Live i ∨ i = m.objects.length := by
    intro i
    constructor
    · rintro ⟨k, hget⟩
      change get (set m.flows flowInfo.toFlowKey m.objects.length) k = some i at hget
      rw [get_set] at hget
      split at hget
      · exact .inr (Option.some.inj hget).symm
      · exact .inl ⟨k, hget⟩
    · rintro (⟨k, hget⟩ | rfl)
      · refine ⟨k, ?_⟩
        change get (set m.flows flowInfo.toFlowKey m.objects.length) k = some i
        rw [get_set, if_neg]
        · exact hget
        · rintro rfl
          rw [hnew] at hget
          cases hget
      · refine ⟨flowInfo.toFlowKey, ?_⟩
        change get (set m.flows flowInfo.toFlowKey m.objects.length) flowInfo.toFlowKey = _
        rw [get_set, if_pos rfl]
  refine ⟨h.coherent.createFlow flowInfo now hnew, ?_, fun i hi => ?_, fun i hlt hdead => ?_,
    fun i hle => h.fresh i (by omega), h.sends⟩
  · change (keys (set m.flows flowInfo.toFlowKey m.objects.length)).Nodup
    rw [set_of_fresh (get_eq_none_iff.mp hnew)]
    exact keys_append_nodup h.nodup (get_eq_none_iff.mp hnew)
  · rcases (hlive i).mp hi with hold | rfl
    · exact h.live i hold
    · exact h.fresh _ le_rfl
  · have hdead : ¬(m.Live i ∨ i = m.objects.length) := fun hi => hdead ((hlive i).mpr hi)
    rw [not_or] at hdead
    exact h.closed i (by omega) hdead.1

/-- A send goes out on a live socket; an error closes it. -/
theorem Ledger.transmit {env : Environment} {key : FlowKey} {id : FlowId} {payload : Bytes}
    (h : Ledger m history) (hget : get m.flows key = some id) :
    Ledger (m.transmit env key id payload).1 (history ++ (m.transmit env key id payload).2.1) := by
  obtain ⟨flow, hflow, hkey⟩ := h.coherent.entry key id hget
  have hlt : id < m.objects.length := (List.getElem?_eq_some_iff.mp hflow).1
  have hlength : (m.objects.set id { flow with lastSeen := env.now }).length = m.objects.length :=
    List.length_set
  have htouched := h.coherent.touch hflow env.now
  have hcached : Ledger { m with
      lastFlow := some id
      objects := m.objects.set id { flow with lastSeen := env.now } } history := by
    refine h.touch ⟨htouched.entry, htouched.own, fun i hlast => ?_⟩ hlength
    obtain rfl := Option.some.inj hlast
    exact ⟨{ flow with lastSeen := env.now }, by simp [hlt], hkey ▸ hget⟩
  unfold UDPFlowManager.transmit
  rw [hflow]
  dsimp only
  split
  · have hopen : FlowEffect.close id ∉ history :=
      List.count_eq_zero.mp (h.live id ⟨key, hget⟩)
    refine ⟨hcached.coherent, hcached.nodup, fun i hi => ?_, fun i hi hdead => ?_,
      fun i hle => ?_, sendsOpen_append h.sends fun before after i p port address heq => ?_⟩
    · rw [List.count_append, hcached.live i hi]
      simp
    · rw [List.count_append, hcached.closed i hi hdead]
      simp
    · rw [List.count_append, hcached.fresh i hle]
      simp
    · obtain ⟨rfl, hsend⟩ | ⟨-, hfalse⟩ := List.singleton_eq_append_iff.mp heq
      · obtain ⟨rfl, -⟩ := FlowEffect.send.inj (List.cons.inj hsend).1
        rwa [List.append_nil]
      · cases hfalse
  · exact hcached.handleFlowError key

/-- A send of the VM, on a flow that is found or made. -/
theorem Ledger.send {env : Environment} {payload : Bytes} {flowInfo : FlowInfo}
    (h : Ledger m history) :
    Ledger (m.send cfg env payload flowInfo).1
      (history ++ (m.send cfg env payload flowInfo).2.1) := by
  unfold UDPFlowManager.send
  split
  · rename_i id flow hcached
    obtain ⟨hlast, hflow, -⟩ := cachedFlow_eq_some hcached
    obtain ⟨live, hlive, hget⟩ := h.coherent.last id hlast
    obtain rfl := Option.some.inj (hlive.symm.trans hflow)
    exact h.transmit hget
  · dsimp only
    split
    · rename_i id hget
      exact h.transmit hget
    · rename_i habsent
      have hclean := h.cleanup cfg env.now
      have hnew : get (m.cleanup cfg env.now).1.flows flowInfo.toFlowKey = none :=
        cleanupLoop_absent env.now m.flows habsent
      split
      · exact hclean.counters _ _
      · split
        · change Ledger _ (history ++ (_ ++ _))
          rw [← List.append_assoc]
          refine (hclean.createFlow flowInfo env.now hnew).transmit ?_
          change get (set _ _ _) _ = _
          rw [get_set, if_pos rfl]
        · change Ledger _ (history ++ (_ ++ _))
          rw [← List.append_assoc]
          exact (hclean.counters _ _).report rfl fun i => by simp

/-- A datagram from outside closes no socket, and nothing is sent for it. -/
theorem Ledger.message (h : Ledger m history) (now : Nat) (id : FlowId) (payload : Bytes)
    (address : Address) (port : Port) :
    Ledger (m.message now id payload address port).1
      (history ++ (m.message now id payload address port).2) := by
  unfold UDPFlowManager.message
  split
  · rw [List.append_nil]
    exact h
  rename_i flow hflow
  split
  · rw [List.append_nil]
    exact h
  · have htouched : Ledger { m with objects := m.objects.set id { flow with lastSeen := now } }
        history := h.touch (h.coherent.touch hflow now) List.length_set
    exact htouched.report rfl fun i => by simp

theorem Ledger.socketError (h : Ledger m history) (id : FlowId) :
    Ledger (m.socketError id).1 (history ++ (m.socketError id).2) := by
  unfold UDPFlowManager.socketError
  split
  · rw [List.append_nil]
    exact h
  · exact h.handleFlowError _

/-- Every method and every socket event keeps the books. This is the step lemma
of the run theorem. -/
theorem Ledger.handle (h : Ledger m history) (event : Event) :
    Ledger (m.handle cfg event).1 (history ++ (m.handle cfg event).2) := by
  cases event with
  | send env payload flowInfo => exact h.send
  | message now id payload address port => exact h.message now id payload address port
  | socketError id => exact h.socketError id
  | cleanup now => exact h.cleanup cfg now
  | close => exact h.close

theorem ledger_nil : Ledger {} [] where
  coherent := coherent_nil
  nodup := List.nodup_nil
  live := by rintro id ⟨key, hget⟩; cases hget
  closed := by rintro id hlt; exact absurd hlt (Nat.not_lt_zero id)
  fresh := by intro id _; rfl
  sends := by intro before after id payload port address heq; simp at heq

theorem ledger_of_run {events : List Event} {o : Observed}
    (hrun : Run (ObservedStep cfg) {} events o) : Ledger o.manager o.history := by
  refine hrun.invariant (P := fun o => Ledger o.manager o.history) ?_ ledger_nil
  rintro before event after hbefore rfl
  exact hbefore.handle event

theorem removeFlow_flows (m : UDPFlowManager) (key : FlowKey) :
    (m.removeFlow key).1.flows = delete m.flows key := by
  unfold removeFlow
  split
  · rename_i hnone
    refine (List.filter_eq_self.mpr fun e he => ?_).symm
    have hne : e.1 ≠ key := by
      rintro rfl
      exact get_eq_none_iff.mp hnone (List.mem_map_of_mem he)
    simpa using hne
  · rfl

/-- `cleanupLoop` drops the idle flows among its entries and keeps the others. -/
theorem cleanupLoop_flows (now : Nat) (entries : List (FlowKey × FlowId)) (m : UDPFlowManager) :
    (cleanupLoop cfg now entries m).1.flows = m.flows.filter fun e =>
      ∀ e' ∈ entries, m.idle cfg now e'.2 = true → e.1 ≠ e'.1 := by
  induction entries generalizing m with
  | nil => simp [cleanupLoop]
  | cons entry rest ih =>
      unfold cleanupLoop
      split
      · rename_i hidle
        have hsame : ∀ id, (m.removeFlow entry.1).1.idle cfg now id = m.idle cfg now id := by
          intro id
          unfold idle
          rw [removeFlow_objects]
        dsimp only
        rw [ih, removeFlow_flows, delete, List.filter_filter]
        refine List.filter_congr fun e _ => ?_
        simp only [hsame, List.forall_mem_cons, hidle]
        simp [Bool.and_comm]
      · rename_i hactive
        rw [ih]
        exact List.filter_congr fun e _ => by simp [hactive]

/-- `cleanup` removes exactly the idle flows, in one pass over the map. -/
theorem cleanup_flows (cfg : RelaySettings) (h : (keys m.flows).Nodup) (now : Nat) :
    (m.cleanup cfg now).1.flows = m.flows.filter fun e => !m.idle cfg now e.2 := by
  rw [cleanup, cleanupLoop_flows]
  refine List.filter_congr fun e he => ?_
  rw [Bool.eq_iff_iff, decide_eq_true_eq, Bool.not_eq_true']
  constructor
  · intro hall
    exact Bool.eq_false_iff.mpr fun hidle => hall e he hidle rfl
  · rintro hactive e' he' hidle hkey
    have hsame : e = e' := by
      have hget := get_of_mem h (k := e.1) (v := e.2) he
      have hget' := get_of_mem h (k := e'.1) (v := e'.2) he'
      rw [← hkey, hget] at hget'
      exact Prod.ext hkey (Option.some.inj hget')
    rw [← hsame, hactive] at hidle
    cases hidle

theorem cleanupLoop_objects (now : Nat) (entries : List (FlowKey × FlowId))
    (m : UDPFlowManager) : (cleanupLoop cfg now entries m).1.objects = m.objects := by
  induction entries generalizing m with
  | nil => rfl
  | cons entry rest ih =>
      unfold cleanupLoop
      split
      · exact (ih _).trans (removeFlow_objects m entry.1)
      · exact ih m

theorem handleFlowError_flows (m : UDPFlowManager) (key : FlowKey) :
    (m.handleFlowError key).1.flows = delete m.flows key := by
  unfold handleFlowError
  split
  · rename_i hnone
    rw [← removeFlow_flows, removeFlow, hnone]
  · exact removeFlow_flows _ key

theorem handleFlowError_objects (m : UDPFlowManager) (key : FlowKey) :
    (m.handleFlowError key).1.objects = m.objects := by
  unfold handleFlowError
  split
  · rfl
  · exact removeFlow_objects _ key

theorem transmit_length_le (m : UDPFlowManager) (env : Environment) (key : FlowKey) (id : FlowId)
    (payload : Bytes) : (m.transmit env key id payload).1.flows.length ≤ m.flows.length := by
  unfold transmit
  split
  · exact le_rfl
  dsimp only
  split
  · exact le_rfl
  · rw [handleFlowError_flows]
    exact length_delete_le _ _

theorem removeFlows_flows (ks : List FlowKey) (acc : UDPFlowManager × List FlowEffect) :
    (removeFlows acc ks).1.flows = acc.1.flows.filter (fun e => e.1 ∉ ks) ∧
      (removeFlows acc ks).1.objects = acc.1.objects := by
  induction ks generalizing acc with
  | nil => exact ⟨by simp [removeFlows], rfl⟩
  | cons key rest ih =>
      rw [removeFlows_cons]
      obtain ⟨hflows, hobjects⟩ := ih ((acc.1.removeFlow key).1, acc.2 ++ (acc.1.removeFlow key).2)
      refine ⟨hflows.trans ?_, hobjects.trans (removeFlow_objects acc.1 key)⟩
      rw [removeFlow_flows, delete, List.filter_filter]
      exact List.filter_congr fun e _ => by simp [Bool.and_comm]

theorem close_flows_objects (m : UDPFlowManager) :
    m.close.1.flows = [] ∧ m.close.1.objects = m.objects := by
  obtain ⟨hflows, hobjects⟩ := removeFlows_flows (keys m.flows) (m, [])
  refine ⟨hflows.trans (List.filter_eq_nil_iff.mpr fun e he => ?_), hobjects⟩
  have hmem : e.1 ∈ keys m.flows := List.mem_map_of_mem he
  simpa using hmem

/-- The number of flows stays within its limit: where the cleanup makes no room,
the datagram is dropped. -/
theorem handle_length_le {event : Event} (h : m.flows.length ≤ cfg.maxUdpFlowsPerSession) :
    (m.handle cfg event).1.flows.length ≤ cfg.maxUdpFlowsPerSession := by
  have hremoved : ∀ key, (delete m.flows key).length ≤ cfg.maxUdpFlowsPerSession :=
    fun key => (length_delete_le m.flows key).trans h
  cases event with
  | send env payload flowInfo =>
      change (m.send cfg env payload flowInfo).1.flows.length ≤ _
      unfold send
      split
      · exact (transmit_length_le ..).trans h
      dsimp only
      split
      · exact (transmit_length_le ..).trans h
      rename_i habsent
      have hclean : (m.cleanup cfg env.now).1.flows.length ≤ m.flows.length := by
        rw [cleanup, cleanupLoop_flows]
        exact List.length_filter_le _ _
      split
      · exact hclean.trans h
      rename_i hroom
      have hnew : get (m.cleanup cfg env.now).1.flows flowInfo.toFlowKey = none :=
        cleanupLoop_absent env.now m.flows habsent
      split
      · refine (transmit_length_le ..).trans ?_
        change (set _ _ _).length ≤ _
        rw [set_of_fresh (get_eq_none_iff.mp hnew), List.length_append, List.length_singleton]
        omega
      · exact hclean.trans h
  | message now id payload address port =>
      change (m.message now id payload address port).1.flows.length ≤ _
      unfold message
      split
      · exact h
      · split <;> exact h
  | socketError id =>
      change (m.socketError id).1.flows.length ≤ _
      unfold socketError
      split
      · exact h
      · rw [handleFlowError_flows]
        exact hremoved _
  | cleanup now =>
      change (m.cleanup cfg now).1.flows.length ≤ _
      rw [cleanup, cleanupLoop_flows]
      exact (List.length_filter_le _ _).trans h
  | close =>
      change m.close.1.flows.length ≤ _
      rw [(close_flows_objects m).1]
      exact Nat.zero_le _

theorem transmit_lastSeen {env : Environment} {key : FlowKey} {id : FlowId} {payload : Bytes}
    {flow : Flow} (h : flow ∈ (m.transmit env key id payload).1.objects) :
    flow ∈ m.objects ∨ flow.lastSeen = env.now := by
  unfold transmit at h
  split at h
  · exact .inl h
  dsimp only at h
  split at h
  · exact (List.mem_or_eq_of_mem_set h).imp_right fun heq => congrArg Flow.lastSeen heq
  · rw [handleFlowError_objects] at h
    exact (List.mem_or_eq_of_mem_set h).imp_right fun heq => congrArg Flow.lastSeen heq

/-- A step changes `lastSeen` to the time of its event, or leaves it. -/
theorem handle_lastSeen {event : Event} {flow : Flow} (h : flow ∈ (m.handle cfg event).1.objects) :
    flow ∈ m.objects ∨ event.time = some flow.lastSeen := by
  cases event with
  | send env payload flowInfo =>
      change flow ∈ (m.send cfg env payload flowInfo).1.objects at h
      suffices hsent : flow ∈ m.objects ∨ flow.lastSeen = env.now from
        hsent.imp_right fun heq => congrArg some heq.symm
      unfold send at h
      split at h
      · exact transmit_lastSeen h
      dsimp only at h
      split at h
      · exact transmit_lastSeen h
      have hclean : (m.cleanup cfg env.now).1.objects = m.objects := cleanupLoop_objects ..
      split at h
      · exact .inl (hclean ▸ h)
      split at h
      · rcases transmit_lastSeen h with hcreated | heq
        · rcases List.mem_append.mp hcreated with hold | hnew
          · exact .inl (hclean ▸ hold)
          · rw [List.mem_singleton.mp hnew]
            exact .inr rfl
        · exact .inr heq
      · exact .inl (hclean ▸ h)
  | message now id payload address port =>
      change flow ∈ (m.message now id payload address port).1.objects at h
      unfold message at h
      split at h
      · exact .inl h
      split at h
      · exact .inl h
      · refine (List.mem_or_eq_of_mem_set h).imp_right fun heq => ?_
        rw [heq]
        rfl
  | socketError id =>
      change flow ∈ (m.socketError id).1.objects at h
      unfold socketError at h
      split at h
      · exact .inl h
      · exact .inl (handleFlowError_objects m _ ▸ h)
  | cleanup now => exact .inl ((cleanupLoop_objects now m.flows m) ▸ h)
  | close => exact .inl ((close_flows_objects m).2 ▸ h)

theorem lastSeen_of_run {events : List Event} {o : Observed}
    (hrun : Run (ObservedStep cfg) {} events o) :
    ∀ flow ∈ o.manager.objects, flow.lastSeen ∈ events.filterMap Event.time := by
  induction hrun with
  | nil => exact fun flow hflow => absurd hflow List.not_mem_nil
  | snoc _ hlast ih =>
      obtain rfl := hlast
      intro flow hflow
      rw [List.filterMap_append]
      rcases handle_lastSeen hflow with hold | htime
      · exact List.mem_append_left _ (ih flow hold)
      · exact List.mem_append_right _ (by simp [htime])

/-- `send` drops the datagram because the map is full. -/
def Refused (cfg : RelaySettings) (m : UDPFlowManager) (env : Environment) (payload : Bytes)
    (flowInfo : FlowInfo) : Prop :=
  (m.send cfg env payload flowInfo).1.droppedPackets = m.droppedPackets + 1

theorem transmit_droppedPackets (m : UDPFlowManager) (env : Environment) (key : FlowKey)
    (id : FlowId) (payload : Bytes) :
    (m.transmit env key id payload).1.droppedPackets = m.droppedPackets := by
  unfold transmit
  split
  · rfl
  dsimp only
  split
  · rfl
  · unfold handleFlowError
    split
    · rfl
    · exact (removeFlow_quiet _ key).droppedPackets

/-- A refused datagram found no flow of its own, and the map full after
`cleanup`. -/
theorem Refused.full {env : Environment} {payload : Bytes} {flowInfo : FlowInfo}
    (h : Refused cfg m env payload flowInfo) :
    get m.flows flowInfo.toFlowKey = none ∧
      (m.send cfg env payload flowInfo).1.flows = (m.cleanup cfg env.now).1.flows ∧
      (m.send cfg env payload flowInfo).1.objects = m.objects ∧
      cfg.maxUdpFlowsPerSession ≤ (m.cleanup cfg env.now).1.flows.length := by
  have hclean : (m.cleanup cfg env.now).1.objects = m.objects := cleanupLoop_objects ..
  have hquiet : (m.cleanup cfg env.now).1.droppedPackets = m.droppedPackets :=
    (cleanupLoop_quiet env.now m.flows m).droppedPackets
  unfold Refused send at h
  unfold send
  split at h
  · rw [transmit_droppedPackets] at h
    omega
  dsimp only at h ⊢
  split at h
  · rw [transmit_droppedPackets] at h
    omega
  rename_i habsent
  split at h
  · rename_i hfull
    rw [if_pos hfull]
    exact ⟨habsent, rfl, hclean, hfull⟩
  split at h
  · rw [transmit_droppedPackets] at h
    exact absurd (h.symm.trans hquiet) (by omega)
  · exact absurd (h.symm.trans hquiet) (by omega)

/-- The sockets of a manager and the limits of its map, after calls at the given
times. -/
structure Accounts (cfg : RelaySettings) (m : UDPFlowManager) (history : List FlowEffect)
    (times : List Nat) : Prop where
  partition : ∀ id, id < m.objects.length →
    (∃! key, get m.flows key = some id) ∧ history.count (.close id) = 0 ∨
      ¬m.Live id ∧ history.count (.close id) = 1
  created : ∀ id, m.Live id → id < m.objects.length
  distinct : (keys m.flows).Nodup ∧ (m.flows.map Prod.snd).Nodup
  size : m.flows.length ≤ cfg.maxUdpFlowsPerSession
  refused : ∀ env payload flowInfo, (∀ t ∈ times, t ≤ env.now) → Refused cfg m env payload flowInfo →
    (m.send cfg env payload flowInfo).1.flows.length = cfg.maxUdpFlowsPerSession ∧
      ∀ key id, get (m.send cfg env payload flowInfo).1.flows key = some id →
        ∃ flow, (m.send cfg env payload flowInfo).1.objects[id]? = some flow ∧
          flow.lastSeen ≤ env.now ∧ env.now < flow.lastSeen + cfg.udpFlowIdleTimeoutMs
  cleanup : ∀ now key id flow, get m.flows key = some id → m.objects[id]? = some flow →
    get (m.cleanup cfg now).1.flows key =
      if flow.lastSeen + cfg.udpFlowIdleTimeoutMs ≤ now then none else some id
  closes : m.close.1.flows = []

theorem Ledger.distinct (h : Ledger m history) : (m.flows.map Prod.snd).Nodup := by
  have hpairs : m.flows.Nodup := List.Nodup.of_map Prod.fst h.nodup
  refine List.Nodup.map_on ?_ hpairs
  intro e he e' he' hid
  have hget := get_of_mem h.nodup (k := e.1) (v := e.2) he
  have hget' := get_of_mem h.nodup (k := e'.1) (v := e'.2) he'
  rw [← hid] at hget'
  exact Prod.ext (h.coherent.key_unique hget hget') hid

/-- Along every run the sockets are accounted for, and the map stays within its
limits. -/
theorem run_accounts {events : List Event} {o : Observed}
    (hrun : Run (ObservedStep cfg) {} events o) :
    Accounts cfg o.manager o.history (events.filterMap Event.time) := by
  have hledger := ledger_of_run hrun
  have hseen := lastSeen_of_run hrun
  have hsize : o.manager.flows.length ≤ cfg.maxUdpFlowsPerSession := by
    refine hrun.invariant (P := fun o => o.manager.flows.length ≤ cfg.maxUdpFlowsPerSession) ?_
      (Nat.zero_le _)
    rintro before event after hbefore rfl
    exact handle_length_le hbefore
  refine ⟨fun id hlt => ?_, fun id hlive => hledger.coherent.live_lt hlive,
    ⟨hledger.nodup, hledger.distinct⟩, hsize, fun env payload flowInfo hclock hrefused => ?_,
    fun now key id flow hget hflow => ?_, (close_flows_objects o.manager).1⟩
  · by_cases hlive : o.manager.Live id
    · obtain ⟨key, hget⟩ := hlive
      exact .inl ⟨⟨key, hget, fun _ hget' => hledger.coherent.key_unique hget' hget⟩,
        hledger.live id ⟨key, hget⟩⟩
    · exact .inr ⟨hlive, hledger.closed id hlt hlive⟩
  · obtain ⟨-, hflows, hobjects, hfull⟩ := hrefused.full
    have hactive := cleanup_flows cfg hledger.nodup env.now
    rw [hflows, hobjects]
    refine ⟨le_antisymm ?_ hfull, fun key id hget => ?_⟩
    · rw [hactive]
      exact (List.length_filter_le _ _).trans hsize
    · have hmem := mem_of_get hget
      rw [hactive] at hmem
      obtain ⟨hold, hnot⟩ := List.mem_filter.mp hmem
      obtain ⟨flow, hflow, -⟩ := hledger.coherent.entry key id (get_of_mem hledger.nodup hold)
      refine ⟨flow, hflow, hclock _ (hseen flow (List.mem_of_getElem? hflow)), ?_⟩
      unfold idle at hnot
      simpa [hflow] using hnot
  · rw [cleanup_flows cfg hledger.nodup, get_filter hledger.nodup _ hget]
    unfold idle
    simp only [hflow]
    by_cases hidle : flow.lastSeen + cfg.udpFlowIdleTimeoutMs ≤ now <;> simp [hidle]

/-- A query of the VM to a name server. -/
def exampleFlow : FlowInfo := ⟨⟨⟨10, 0, 2, 15⟩, 5000, ⟨8, 8, 8, 8⟩, 53⟩, true⟩

/-- The events of a flow that expires and is opened again. -/
def exampleEvents : List Event :=
  [.send {} [1] exampleFlow, .cleanup 30000, .send { now := 30001 } [2] exampleFlow]

theorem run_accounts_expiry :
    ∃ o : Observed, Run (ObservedStep {}) {} exampleEvents o ∧ o.manager.objects.length = 2 ∧
      o.history.count (.close 0) = 1 ∧ Accounts {} o.manager o.history [0, 30000, 30001] := by
  have hrun : Run (ObservedStep {}) {} exampleEvents _ :=
    .cons rfl (.cons rfl (.cons rfl (.nil _)))
  exact ⟨_, hrun, by decide, by decide, run_accounts hrun⟩

end UDPFlowManager

end RootlessRelay
