import RootlessRelay.Udp.Sockets

/-!
# The cache of the flow manager

`lastFlow` spares `send` the lookup in `flows`. A manager without the field,
which looks every four-tuple up, makes the same sockets, puts every datagram on
the same one and counts the same drops and errors: a cached flow is always the
live entry of its own four-tuple.

The two managers are compared through what can be observed of them: the state
without the cache, the effects, and whether `send` accepted. Both run through
the same code, once with the cache as it is and once with an empty one, so the
simulation is about that field and nothing else. It needs `Coherent` and no
other invariant.
-/

namespace RootlessRelay

open InsertionMap Transition

/-- A flow manager without `lastFlow`, and otherwise with the same fields. -/
structure PlainManager where
  flows : List (FlowKey × FlowId) := []
  objects : List Flow := []
  droppedPackets : Nat := 0
  sendErrors : Nat := 0
  deriving DecidableEq, Repr

/-- What a call or an event shows: the sockets and counters after it, what it
did, and for a call of `send` what it returned. -/
structure Observation where
  state : PlainManager
  effects : List FlowEffect
  accepted : Option Bool
  deriving DecidableEq, Repr

namespace UDPFlowManager

variable (cfg : RelaySettings)

/-- The manager without its cache: the relation of the simulation. -/
def plain (m : UDPFlowManager) : PlainManager where
  flows := m.flows
  objects := m.objects
  droppedPackets := m.droppedPackets
  sendErrors := m.sendErrors

/-- What a call or an event shows: the state without the cache, the effects, and
the answer of `send`. -/
def observe (m : UDPFlowManager) (event : Event) : Observation where
  state := (m.handle cfg event).1.plain
  effects := (m.handle cfg event).2
  accepted := match event with
    | .send env payload flowInfo => some (m.send cfg env payload flowInfo).2.2
    | _ => none

/-- What a sequence of calls and events shows, one observation for each. -/
def trace (m : UDPFlowManager) : List Event → List Observation
  | [] => []
  | event :: rest => m.observe cfg event :: (m.handle cfg event).1.trace rest

end UDPFlowManager

namespace PlainManager

variable (cfg : RelaySettings)

/-- The same manager; `send` finds no cached flow and looks the four-tuple up. -/
def manager (p : PlainManager) : UDPFlowManager where
  flows := p.flows
  objects := p.objects
  lastFlow := none
  droppedPackets := p.droppedPackets
  sendErrors := p.sendErrors

/-- What a call or an event shows of the manager without a cache. -/
def observe (p : PlainManager) (event : UDPFlowManager.Event) : Observation :=
  p.manager.observe cfg event

/-- What a sequence of calls and events shows of the manager without a cache. -/
def trace (p : PlainManager) : List UDPFlowManager.Event → List Observation
  | [] => []
  | event :: rest => p.observe cfg event :: (p.observe cfg event).state.trace rest

end PlainManager

namespace UDPFlowManager

variable {cfg : RelaySettings} {m : UDPFlowManager}

/-- The manager with another flow in its cache. -/
def withLast (m : UDPFlowManager) (lastFlow : Option FlowId) : UDPFlowManager := { m with lastFlow }

@[simp] theorem withLast_plain (m : UDPFlowManager) (lastFlow : Option FlowId) :
    (m.withLast lastFlow).plain = m.plain := rfl

@[simp] theorem withLast_flows (m : UDPFlowManager) (lastFlow : Option FlowId) :
    (m.withLast lastFlow).flows = m.flows := rfl

@[simp] theorem withLast_objects (m : UDPFlowManager) (lastFlow : Option FlowId) :
    (m.withLast lastFlow).objects = m.objects := rfl

theorem plain_manager (m : UDPFlowManager) : m.plain.manager = m.withLast none := rfl

theorem removeFlow_withLast (m : UDPFlowManager) (last : Option FlowId) (key : FlowKey) :
    ∃ last', (m.withLast last).removeFlow key =
      ((m.removeFlow key).1.withLast last', (m.removeFlow key).2) := by
  unfold removeFlow
  cases hget : get m.flows key with
  | none => exact ⟨last, by simp [hget]⟩
  | some id =>
      refine ⟨if last = some id then none else last, ?_⟩
      simp only [withLast_flows, hget]
      rfl

theorem cleanupLoop_withLast (cfg : RelaySettings) (now : Nat) (entries : List (FlowKey × FlowId))
    (m : UDPFlowManager) (last : Option FlowId) :
    ∃ last', cleanupLoop cfg now entries (m.withLast last) =
      ((cleanupLoop cfg now entries m).1.withLast last', (cleanupLoop cfg now entries m).2) := by
  induction entries generalizing m last with
  | nil => exact ⟨last, rfl⟩
  | cons entry rest ih =>
      unfold cleanupLoop
      change ∃ last', (if m.idle cfg now entry.2 then _ else _) = _
      split
      · obtain ⟨last', hremoved⟩ := removeFlow_withLast m last entry.1
        obtain ⟨last'', hrest⟩ := ih (m.removeFlow entry.1).1 last'
        exact ⟨last'', by simp only [hremoved, hrest]⟩
      · exact ih m last

theorem handleFlowError_withLast (m : UDPFlowManager) (last : Option FlowId) (key : FlowKey) :
    ∃ last', (m.withLast last).handleFlowError key =
      ((m.handleFlowError key).1.withLast last', (m.handleFlowError key).2) := by
  unfold handleFlowError
  simp only [withLast_flows, withLast_objects]
  cases get m.flows key with
  | none => exact ⟨last, rfl⟩
  | some id =>
      obtain ⟨last', hremoved⟩ :=
        removeFlow_withLast { m with sendErrors := m.sendErrors + 1 } last key
      exact ⟨last', congrArg (fun removed : UDPFlowManager × List FlowEffect =>
        (removed.1, ((m.objects[id]?).map fun flow => FlowEffect.error flow.toFlowInfo).toList ++
          removed.2)) hremoved⟩

theorem transmit_withLast (m : UDPFlowManager) (last : Option FlowId) (env : Environment)
    (key : FlowKey) (id : FlowId) (payload : Bytes) :
    ∃ last', (m.withLast last).transmit env key id payload =
      ((m.transmit env key id payload).1.withLast last',
        (m.transmit env key id payload).2) := by
  unfold transmit
  simp only [withLast_objects]
  cases m.objects[id]? with
  | none => exact ⟨last, rfl⟩
  | some flow => exact ⟨_, rfl⟩

theorem removeFlows_withLast (m : UDPFlowManager) (last : Option FlowId)
    (closed : List FlowEffect) (ks : List FlowKey) :
    ∃ last', removeFlows (m.withLast last, closed) ks =
      ((removeFlows (m, closed) ks).1.withLast last', (removeFlows (m, closed) ks).2) := by
  induction ks generalizing m last closed with
  | nil => exact ⟨last, rfl⟩
  | cons key rest ih =>
      obtain ⟨last', hremoved⟩ := removeFlow_withLast m last key
      obtain ⟨last'', hrest⟩ := ih (m.removeFlow key).1 last' (closed ++ (m.removeFlow key).2)
      refine ⟨last'', ?_⟩
      rw [removeFlows_cons, removeFlows_cons]
      simp only [hremoved]
      exact hrest

theorem close_withLast (m : UDPFlowManager) (last : Option FlowId) :
    ∃ last', (m.withLast last).close = (m.close.1.withLast last', m.close.2) :=
  removeFlows_withLast m last [] (keys m.flows)

theorem message_withLast (m : UDPFlowManager) (last : Option FlowId) (now : Nat) (id : FlowId)
    (payload : Bytes) (address : Address) (port : Port) :
    (m.withLast last).message now id payload address port =
      ((m.message now id payload address port).1.withLast last,
        (m.message now id payload address port).2) := by
  unfold message
  simp only [withLast_objects]
  cases m.objects[id]? with
  | none => rfl
  | some flow =>
      dsimp only
      split <;> rfl

/-- Whatever a coherent manager caches, `send` does what it does without a
cache. This is the only place where the cached flow matters. -/
theorem Coherent.send_withLast (h : Coherent m) (cfg : RelaySettings) (env : Environment) (payload : Bytes)
    (flowInfo : FlowInfo) :
    ∃ last', (m.withLast none).send cfg env payload flowInfo =
      ((m.send cfg env payload flowInfo).1.withLast last',
        (m.send cfg env payload flowInfo).2) := by
  unfold UDPFlowManager.send
  have hplain : (m.withLast none).cachedFlow flowInfo = none := rfl
  rw [hplain]
  cases hcached : m.cachedFlow flowInfo with
  | some cached =>
      obtain ⟨id, flow⟩ := cached
      obtain ⟨hlast, hflow, hown⟩ := cachedFlow_eq_some hcached
      obtain ⟨live, hlive, hget⟩ := h.last id hlast
      obtain rfl := Option.some.inj (hlive.symm.trans hflow)
      -- the cached flow is what the lookup finds
      have hkey : live.key = flowInfo.toFlowKey :=
        (h.own live (List.mem_of_getElem? hflow)).trans hown
      have hfound : get m.flows flowInfo.toFlowKey = some id := hkey ▸ hget
      simp only [withLast_flows, hfound, hkey]
      exact transmit_withLast m none env _ id payload
  | none =>
      simp only [withLast_flows]
      cases get m.flows flowInfo.toFlowKey with
      | some id => exact transmit_withLast m none env _ id payload
      | none =>
          obtain ⟨last, hclean⟩ := cleanupLoop_withLast cfg env.now m.flows m none
          have hclean : (m.withLast none).cleanup cfg env.now =
              ((m.cleanup cfg env.now).1.withLast last, (m.cleanup cfg env.now).2) := hclean
          simp only [hclean, withLast_flows, withLast_objects]
          generalize m.cleanup cfg env.now = cleaned
          obtain ⟨cleaned, closed⟩ := cleaned
          dsimp only
          split
          · exact ⟨last, rfl⟩
          split
          · obtain ⟨last', hsent⟩ := transmit_withLast
              (cleaned.createFlow flowInfo.toFlowKey flowInfo env.now) last env flowInfo.toFlowKey
              cleaned.objects.length payload
            exact ⟨last', congrArg (fun sent : UDPFlowManager × List FlowEffect × Bool =>
              (sent.1, closed ++ sent.2.1, sent.2.2)) hsent⟩
          · exact ⟨last, rfl⟩

theorem socketError_withLast (m : UDPFlowManager) (last : Option FlowId) (id : FlowId) :
    ∃ last', (m.withLast last).socketError id =
      ((m.socketError id).1.withLast last', (m.socketError id).2) := by
  unfold socketError
  simp only [withLast_objects]
  cases m.objects[id]? with
  | none => exact ⟨last, rfl⟩
  | some flow => exact handleFlowError_withLast m last flow.key

theorem Coherent.handle_withLast (h : Coherent m) (cfg : RelaySettings) (event : Event) :
    ∃ last', (m.withLast none).handle cfg event =
      ((m.handle cfg event).1.withLast last', (m.handle cfg event).2) := by
  cases event with
  | send env payload flowInfo =>
      obtain ⟨last', hsent⟩ := h.send_withLast cfg env payload flowInfo
      exact ⟨last', congrArg (fun sent : UDPFlowManager × List FlowEffect × Bool =>
        (sent.1, sent.2.1)) hsent⟩
  | message now id payload address port =>
      exact ⟨none, message_withLast m none now id payload address port⟩
  | socketError id => exact socketError_withLast m none id
  | cleanup now => exact cleanupLoop_withLast cfg now m.flows m none
  | close => exact close_withLast m none

/-- A call or an event shows the same with and without the cache: the step of
the simulation. -/
theorem Coherent.observe_plain (h : Coherent m) (event : Event) :
    m.plain.observe cfg event = m.observe cfg event := by
  obtain ⟨last', hhandle⟩ := h.handle_withLast cfg event
  unfold PlainManager.observe observe
  rw [plain_manager, hhandle, withLast_plain]
  cases event with
  | send env payload flowInfo =>
      obtain ⟨last', hsent⟩ := h.send_withLast cfg env payload flowInfo
      dsimp only
      rw [hsent]
  | _ => rfl

/-- Every sequence of calls and events shows the same with and without the
cache. -/
theorem Coherent.trace_plain (h : Coherent m) (events : List Event) :
    m.plain.trace cfg events = m.trace cfg events := by
  induction events generalizing m with
  | nil => rfl
  | cons event rest ih =>
      unfold PlainManager.trace UDPFlowManager.trace
      rw [h.observe_plain event]
      exact congrArg _ (ih (h.handle event))

/-- The datagrams delivered to the VM, by flow. -/
def responses (effects : List FlowEffect) : List (FlowId × Bytes) :=
  effects.filterMap fun
    | .response id payload => some (id, payload)
    | _ => none

theorem responses_append (xs ys : List FlowEffect) :
    responses (xs ++ ys) = responses xs ++ responses ys :=
  List.filterMap_append

theorem removeFlow_responses (m : UDPFlowManager) (key : FlowKey) :
    responses (m.removeFlow key).2 = [] := by
  unfold removeFlow
  split <;> rfl

theorem cleanupLoop_responses (now : Nat) (entries : List (FlowKey × FlowId))
    (m : UDPFlowManager) : responses (cleanupLoop cfg now entries m).2 = [] := by
  induction entries generalizing m with
  | nil => rfl
  | cons entry rest ih =>
      unfold cleanupLoop
      split
      · change responses (_ ++ _) = []
        rw [responses_append, removeFlow_responses, ih]
        rfl
      · exact ih m

theorem handleFlowError_responses (m : UDPFlowManager) (key : FlowKey) :
    responses (m.handleFlowError key).2 = [] := by
  unfold handleFlowError
  split
  · rfl
  · rename_i id _
    change responses (_ ++ _) = []
    rw [responses_append, removeFlow_responses]
    cases m.objects[id]? <;> rfl

theorem transmit_responses (m : UDPFlowManager) (env : Environment) (key : FlowKey) (id : FlowId)
    (payload : Bytes) : responses (m.transmit env key id payload).2.1 = [] := by
  unfold transmit
  split
  · rfl
  dsimp only
  split
  · rfl
  · exact handleFlowError_responses _ key

/-- Sending hands nothing to the VM. -/
theorem send_responses (m : UDPFlowManager) (env : Environment) (payload : Bytes)
    (flowInfo : FlowInfo) : responses (m.send cfg env payload flowInfo).2.1 = [] := by
  unfold send
  split
  · exact transmit_responses ..
  dsimp only
  split
  · exact transmit_responses ..
  have hclean : responses (m.cleanup cfg env.now).2 = [] := cleanupLoop_responses ..
  split
  · exact hclean
  split
  · change responses (_ ++ _) = []
    rw [responses_append, hclean, transmit_responses]
    rfl
  · change responses (_ ++ _) = []
    rw [responses_append, hclean]
    rfl

theorem removeFlows_effects (ks : List FlowKey) (acc : UDPFlowManager × List FlowEffect)
    (hsent : sent acc.2 = []) (hresponses : responses acc.2 = []) :
    sent (removeFlows acc ks).2 = [] ∧ responses (removeFlows acc ks).2 = [] := by
  induction ks generalizing acc with
  | nil => exact ⟨hsent, hresponses⟩
  | cons key rest ih =>
      rw [removeFlows_cons]
      apply ih
      · rw [sent_append, hsent, (removeFlow_quiet acc.1 key).sent]
        rfl
      · rw [responses_append, hresponses, removeFlow_responses]
        rfl

theorem close_effects (m : UDPFlowManager) :
    sent m.close.2 = [] ∧ responses m.close.2 = [] :=
  removeFlows_effects (keys m.flows) (m, []) rfl rfl

/-- Only `send` puts a datagram on a socket, and it is the socket of the live
flow of the datagram's own four-tuple. -/
theorem Coherent.sent_own (h : Coherent m) {event : Event} {id : FlowId} {payload : Bytes}
    {port : Port} {address : Address}
    (hmem : .send id payload port address ∈ (m.handle cfg event).2) :
    ∃ env flowInfo flow, event = .send env payload flowInfo ∧
      (m.handle cfg event).1.objects[id]? = some flow ∧ flow.toFlowKey = flowInfo.toFlowKey ∧
      get (m.handle cfg event).1.flows flowInfo.toFlowKey = some id ∧
      port = flowInfo.remotePort ∧ address = flowInfo.remoteIP := by
  have hput : (id, payload, port, address) ∈ sent (m.handle cfg event).2 :=
    List.mem_filterMap.mpr ⟨_, hmem, rfl⟩
  cases event with
  | send env data flowInfo =>
      have haccount : Accounted m (m.send cfg env data flowInfo).1
          (m.send cfg env data flowInfo).2.1 data flowInfo := h.send_accounted
      obtain ⟨⟨id', flow, hflow, hown, hget, hsent⟩, -⟩ | ⟨hnone, -⟩ := haccount
      · change _ ∈ sent (m.send cfg env data flowInfo).2.1 at hput
        rw [hsent, List.mem_singleton] at hput
        obtain ⟨rfl, rfl, rfl, rfl⟩ := hput
        exact ⟨env, flowInfo, flow, rfl, hflow, hown, hget, rfl, rfl⟩
      · change _ ∈ sent (m.send cfg env data flowInfo).2.1 at hput
        rw [hnone] at hput
        cases hput
  | message now i data source sourcePort =>
      have hnone : sent (m.message now i data source sourcePort).2 = [] := by
        unfold UDPFlowManager.message
        split
        · rfl
        · split <;> rfl
      change _ ∈ sent (m.message now i data source sourcePort).2 at hput
      rw [hnone] at hput
      cases hput
  | socketError i =>
      have hnone : sent (m.socketError i).2 = [] := by
        unfold UDPFlowManager.socketError
        split
        · rfl
        · rename_i flow _
          cases hget : get m.flows flow.key with
          | none => simp [UDPFlowManager.handleFlowError, hget]
          | some id => exact (handleFlowError_counts hget).1
      change _ ∈ sent (m.socketError i).2 at hput
      rw [hnone] at hput
      cases hput
  | cleanup now =>
      change _ ∈ sent (UDPFlowManager.cleanupLoop cfg now m.flows m).2 at hput
      rw [(cleanupLoop_quiet now m.flows m).sent] at hput
      cases hput
  | close =>
      change _ ∈ sent m.close.2 at hput
      rw [(close_effects m).1] at hput
      cases hput

/-- Only a datagram on the flow's socket is a response, and only from the flow's
own remote address and port. -/
theorem response_own {event : Event} {id : FlowId} {payload : Bytes}
    (hmem : .response id payload ∈ (m.handle cfg event).2) :
    ∃ now address port flow, event = .message now id payload address port ∧
      m.objects[id]? = some flow ∧ flow.remoteIP = address ∧ flow.remotePort = port := by
  have hgiven : (id, payload) ∈ responses (m.handle cfg event).2 :=
    List.mem_filterMap.mpr ⟨_, hmem, rfl⟩
  cases event with
  | send env data flowInfo =>
      change _ ∈ responses (m.send cfg env data flowInfo).2.1 at hgiven
      rw [send_responses] at hgiven
      cases hgiven
  | message now i data address port =>
      change _ ∈ responses (m.message now i data address port).2 at hgiven
      unfold message at hgiven
      split at hgiven
      · cases hgiven
      rename_i flow hflow
      split at hgiven
      · cases hgiven
      rename_i hfrom
      rw [not_or, not_not, not_not] at hfrom
      obtain ⟨rfl, rfl⟩ := Prod.mk.inj (List.mem_singleton.mp hgiven)
      exact ⟨now, address, port, flow, rfl, hflow, hfrom.1.symm, hfrom.2.symm⟩
  | socketError i =>
      have hnone : responses (m.socketError i).2 = [] := by
        unfold socketError
        split
        · rfl
        · exact handleFlowError_responses m _
      change _ ∈ responses (m.socketError i).2 at hgiven
      rw [hnone] at hgiven
      cases hgiven
  | cleanup now =>
      change _ ∈ responses (cleanupLoop cfg now m.flows m).2 at hgiven
      rw [cleanupLoop_responses] at hgiven
      cases hgiven
  | close =>
      change _ ∈ responses m.close.2 at hgiven
      rw [(close_effects m).2] at hgiven
      cases hgiven

/-- `lastFlow` is null or a live entry of the map, and every datagram and
response goes where its own flow goes. -/
structure Routed (cfg : RelaySettings) (o : Observed) : Prop where
  lastFlow : o.manager.lastFlow = none ∨ ∃ id flow, o.manager.lastFlow = some id ∧
    o.manager.objects[id]? = some flow ∧ get o.manager.flows flow.key = some id
  open_ : SendsOpen o.history
  sends : ∀ event id payload port address,
    .send id payload port address ∈ (o.manager.handle cfg event).2 →
    ∃ env flowInfo flow, event = .send env payload flowInfo ∧
      (o.manager.handle cfg event).1.objects[id]? = some flow ∧
      flow.toFlowKey = flowInfo.toFlowKey ∧
      get (o.manager.handle cfg event).1.flows flowInfo.toFlowKey = some id ∧
      port = flowInfo.remotePort ∧ address = flowInfo.remoteIP
  responses : ∀ event id payload, .response id payload ∈ (o.manager.handle cfg event).2 →
    ∃ now address port flow, event = .message now id payload address port ∧
      o.manager.objects[id]? = some flow ∧ flow.remoteIP = address ∧ flow.remotePort = port

/-- The cache is transparent: every sequence of events shows the same with and
without it, and after every sequence it is null or live. -/
theorem lastFlow_transparent (cfg : RelaySettings) (events : List Event) :
    PlainManager.trace cfg {} events = trace cfg {} events ∧
      ∀ o, Run (ObservedStep cfg) {} events o → Routed cfg o := by
  refine ⟨coherent_nil.trace_plain events, fun o hrun => ?_⟩
  have hledger := ledger_of_run hrun
  refine ⟨?_, hledger.sends, fun event id payload port address hmem =>
    hledger.coherent.sent_own hmem, fun event id payload hmem => response_own hmem⟩
  cases hlast : o.manager.lastFlow with
  | none => exact .inl rfl
  | some id =>
      obtain ⟨flow, hflow, hget⟩ := hledger.coherent.last id hlast
      exact .inr ⟨id, flow, rfl, hflow, hget⟩

theorem lastFlow_transparent_expiry :
    PlainManager.trace {} {} exampleEvents = trace {} {} exampleEvents ∧
      ∃ o : Observed, Run (ObservedStep {}) {} exampleEvents o ∧
        o.manager.lastFlow = some 1 ∧ Routed {} o := by
  obtain ⟨htrace, hrouted⟩ := lastFlow_transparent {} exampleEvents
  have hrun : Run (ObservedStep {}) {} exampleEvents _ :=
    .cons rfl (.cons rfl (.cons rfl (.nil _)))
  exact ⟨htrace, _, hrun, by decide, hrouted _ hrun⟩

end UDPFlowManager

end RootlessRelay
