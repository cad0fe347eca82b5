import RootlessRelay.Library.InsertionMap
import RootlessRelay.Library.Transition
import RootlessRelay.Net.Packets

/-!
# The UDP flow manager

`UDPFlowManager` of `udp_flow_manager.js`. Every call of `createFlow` makes one
flow object and one socket, both named by the number of the call; a reference to
a flow is that number, so `lastFlow` may in principle outlive its entry in
`flows`. That it never does is the invariant `Coherent`, kept by every method
and event.

Sockets belong to the host: whether one can be made and whether a send fails is
part of the `Environment` of a call. A datagram that is handed to `send` leaves
on the flow of its own four-tuple, or is counted as dropped or as failed, and
`Accounted` says so for one call. Runs of calls are taken up in `Sockets`, where
the counters are compared with what was sent.
-/

namespace RootlessRelay

/-- `flowKey`: the four-tuple, without the separators of its string form. -/
structure FlowKey where
  vmIP : Address
  vmPort : Port
  remoteIP : Address
  remotePort : Port
  deriving DecidableEq, Repr

/-- The argument of `send`: the four-tuple, and whether the datagram goes to a
name server. -/
structure FlowInfo extends FlowKey where
  isDNS : Bool
  deriving DecidableEq, Repr

/-- The identity of a flow object and of its socket, by the order of creation. -/
abbrev FlowId := Nat

/-- A flow object. It keeps the key that it was entered under and the time of
its last use. -/
structure Flow extends FlowInfo where
  key : FlowKey
  lastSeen : Nat
  deriving DecidableEq, Repr

/-- What the outside decides while a datagram is handled: the clock, whether
`createSocket` and `socket.send` succeed, and how deep calls may nest. -/
structure Environment where
  now : Nat := 0
  createSocket : Bool := true
  socketSend : Bool := true
  stackDepth : Nat := 10000
  deriving DecidableEq, Repr

/-- What the manager does to its sockets and its owner. -/
inductive FlowEffect
  | send (flow : FlowId) (payload : Bytes) (port : Port) (address : Address)
  | close (flow : FlowId)
  | response (flow : FlowId) (payload : Bytes)
  | error (flow : FlowInfo)
  deriving DecidableEq, Repr

/-- The fields of a manager. `objects` holds every flow object ever made, also
those that have left the map. -/
structure UDPFlowManager where
  flows : List (FlowKey × FlowId) := []
  objects : List Flow := []
  lastFlow : Option FlowId := none
  droppedPackets : Nat := 0
  sendErrors : Nat := 0
  deriving DecidableEq, Repr

namespace UDPFlowManager

open InsertionMap

variable (cfg : RelaySettings)

/-- `removeFlow`: the entry leaves the map and the cache, and its socket is
closed. A key that is absent does nothing. -/
def removeFlow (m : UDPFlowManager) (key : FlowKey) : UDPFlowManager × List FlowEffect :=
  match get m.flows key with
  | none => (m, [])
  | some id =>
      ({ m with
          flows := delete m.flows key
          lastFlow := if m.lastFlow = some id then none else m.lastFlow }, [.close id])

/-- Idle for at least `idleTimeoutMs`. A reference without an object is never
idle; there is none. -/
def idle (m : UDPFlowManager) (now : Nat) (id : FlowId) : Bool :=
  match m.objects[id]? with
  | none => false
  | some flow => flow.lastSeen + cfg.udpFlowIdleTimeoutMs ≤ now

/-- The loop of `cleanup` over the entries present when it starts. Each of them
is removed if it is idle. -/
def cleanupLoop (now : Nat) :
    List (FlowKey × FlowId) → UDPFlowManager → UDPFlowManager × List FlowEffect
  | [], m => (m, [])
  | (key, id) :: rest, m =>
      if m.idle cfg now id then
        let (m, closed) := m.removeFlow key
        let (m, more) := cleanupLoop now rest m
        (m, closed ++ more)
      else cleanupLoop now rest m

/-- `cleanup`: remove the flows that have been idle for too long. -/
def cleanup (m : UDPFlowManager) (now : Nat) : UDPFlowManager × List FlowEffect :=
  cleanupLoop cfg now m.flows m

/-- `handleFlowError`: count a send error and remove the flow, if there still is
one under the key. -/
def handleFlowError (m : UDPFlowManager) (key : FlowKey) : UDPFlowManager × List FlowEffect :=
  match get m.flows key with
  | none => (m, [])
  | some id =>
      let failed := { m with sendErrors := m.sendErrors + 1 }
      let (removed, closed) := failed.removeFlow key
      (removed, ((m.objects[id]?).map fun flow => FlowEffect.error flow.toFlowInfo).toList ++ closed)

/-- The part of `createFlow` after `createSocket` has succeeded: a new object
under its key, which becomes the cached one. -/
def createFlow (m : UDPFlowManager) (key : FlowKey) (flowInfo : FlowInfo) (now : Nat) :
    UDPFlowManager :=
  { m with
    objects := m.objects ++ [{ flowInfo with key := key, lastSeen := now }]
    flows := set m.flows key m.objects.length }

/-- The end of `send`, with the flow found or created under `key`: refresh it
and put the datagram on its socket. -/
def transmit (m : UDPFlowManager) (env : Environment) (key : FlowKey) (id : FlowId)
    (payload : Bytes) : UDPFlowManager × List FlowEffect × Bool :=
  match m.objects[id]? with
  | none => (m, [], false)
  | some flow =>
      let m := { m with
        lastFlow := some id
        objects := m.objects.set id { flow with lastSeen := env.now } }
      if env.socketSend then (m, [.send id payload flow.remotePort flow.remoteIP], true)
      else
        let (m, failed) := m.handleFlowError key
        (m, failed, false)

/-- The `lastFlow` test of `send`: the cached flow, if its fields are the
four-tuple's. It saves building the key. -/
def cachedFlow (m : UDPFlowManager) (flowInfo : FlowInfo) : Option (FlowId × Flow) :=
  match m.lastFlow with
  | none => none
  | some id =>
      match m.objects[id]? with
      | none => none
      | some flow => if flow.toFlowKey = flowInfo.toFlowKey then some (id, flow) else none

/-- `send`: find the flow of a datagram, or make one if there is room for it,
and transmit. -/
def send (m : UDPFlowManager) (env : Environment) (payload : Bytes) (flowInfo : FlowInfo) :
    UDPFlowManager × List FlowEffect × Bool :=
  match m.cachedFlow flowInfo with
  | some (id, flow) => m.transmit env flow.key id payload
  | none =>
      let key := flowInfo.toFlowKey
      match get m.flows key with
      | some id => m.transmit env key id payload
      | none =>
          let (m, closed) := m.cleanup cfg env.now
          if cfg.maxUdpFlowsPerSession ≤ m.flows.length then
            ({ m with droppedPackets := m.droppedPackets + 1 }, closed, false)
          else if env.createSocket then
            let (m', effects, accepted) :=
              (m.createFlow key flowInfo env.now).transmit env key m.objects.length payload
            (m', closed ++ effects, accepted)
          else
            ({ m with sendErrors := m.sendErrors + 1 }, closed ++ [.error flowInfo], false)

/-- A datagram on the socket of flow `id`, from the given address and port. It
is passed on only if it comes from the flow's own remote end. -/
def message (m : UDPFlowManager) (now : Nat) (id : FlowId) (payload : Bytes) (address : Address)
    (port : Port) : UDPFlowManager × List FlowEffect :=
  match m.objects[id]? with
  | none => (m, [])
  | some flow =>
      if address ≠ flow.remoteIP ∨ port ≠ flow.remotePort then (m, [])
      else ({ m with objects := m.objects.set id { flow with lastSeen := now } },
        [.response id payload])

/-- An `error` event of the socket of flow `id`. -/
def socketError (m : UDPFlowManager) (id : FlowId) : UDPFlowManager × List FlowEffect :=
  match m.objects[id]? with
  | none => (m, [])
  | some flow => m.handleFlowError flow.key

/-- `close`: remove every flow, in the order of the map. -/
def close (m : UDPFlowManager) : UDPFlowManager × List FlowEffect :=
  (keys m.flows).foldl (fun (m, closed) key =>
    let (m, more) := m.removeFlow key
    (m, closed ++ more)) (m, [])

/-- The loop of `close`, from the flows and effects so far. Stating it
separately lets the lemmas recur over the keys. -/
def removeFlows (acc : UDPFlowManager × List FlowEffect) (ks : List FlowKey) :
    UDPFlowManager × List FlowEffect :=
  ks.foldl (fun (m, closed) key =>
    let (m, more) := m.removeFlow key
    (m, closed ++ more)) acc

theorem close_eq (m : UDPFlowManager) : m.close = removeFlows (m, []) (keys m.flows) := rfl

theorem removeFlows_cons (acc : UDPFlowManager × List FlowEffect) (key : FlowKey)
    (ks : List FlowKey) : removeFlows acc (key :: ks) =
      removeFlows ((acc.1.removeFlow key).1, acc.2 ++ (acc.1.removeFlow key).2) ks := rfl

/-- A call of the owner, or an event of a socket. -/
inductive Event
  | send (env : Environment) (payload : Bytes) (flowInfo : FlowInfo)
  | message (now : Nat) (id : FlowId) (payload : Bytes) (address : Address) (port : Port)
  | socketError (id : FlowId)
  | cleanup (now : Nat)
  | close

/-- What a call or an event does to the manager, and its effects. -/
def handle (m : UDPFlowManager) : Event → UDPFlowManager × List FlowEffect
  | .send env payload flowInfo =>
      let (m, effects, _) := m.send cfg env payload flowInfo
      (m, effects)
  | .message now id payload address port => m.message now id payload address port
  | .socketError id => m.socketError id
  | .cleanup now => m.cleanup cfg now
  | .close => m.close

/-- One call or event. It is a function: everything that is not determined is in
the event. -/
def Step (m : UDPFlowManager) (event : Event) (m' : UDPFlowManager) : Prop :=
  (m.handle cfg event).1 = m'

/-- Every state some sequence of calls and socket events leads to, from a new
manager. -/
def Reachable (m : UDPFlowManager) : Prop := Transition.Reaches (Step cfg) {} m

/-- Every entry of the map names an object made under its key, every object was
made under its own four-tuple, and `lastFlow` is null or a live entry. -/
structure Coherent (m : UDPFlowManager) : Prop where
  entry : ∀ key id, get m.flows key = some id →
    ∃ flow, m.objects[id]? = some flow ∧ flow.key = key
  own : ∀ flow ∈ m.objects, flow.key = flow.toFlowKey
  last : ∀ id, m.lastFlow = some id →
    ∃ flow, m.objects[id]? = some flow ∧ get m.flows flow.key = some id

variable {cfg : RelaySettings} {m m' : UDPFlowManager}

theorem coherent_nil : Coherent {} where
  entry := by intro key id h; cases h
  own := by intro flow h; cases h
  last := by intro id h; cases h

theorem Coherent.counters (h : Coherent m) (dropped errors : Nat) :
    Coherent { m with droppedPackets := dropped, sendErrors := errors } :=
  ⟨h.entry, h.own, h.last⟩

/-- Removing a flow removes its object from every table, the cache included. -/
theorem Coherent.removeFlow (h : Coherent m) (key : FlowKey) : Coherent (m.removeFlow key).1 := by
  unfold UDPFlowManager.removeFlow
  split
  · exact h
  · rename_i id hid
    refine ⟨?_, h.own, ?_⟩
    · intro k i hget
      rw [get_delete] at hget
      split at hget
      · cases hget
      · exact h.entry k i hget
    · intro i hlast
      change (if m.lastFlow = some id then none else m.lastFlow) = some i at hlast
      split at hlast
      · cases hlast
      · rename_i hne
        obtain ⟨flow, hflow, hget⟩ := h.last i hlast
        refine ⟨flow, hflow, ?_⟩
        have hkey : key ≠ flow.key := by
          rintro rfl
          exact hne (by rw [hlast, ← hget, hid])
        rw [get_delete, if_neg hkey]
        exact hget

theorem removeFlow_objects (m : UDPFlowManager) (key : FlowKey) :
    (m.removeFlow key).1.objects = m.objects := by
  unfold UDPFlowManager.removeFlow
  split <;> rfl

theorem Coherent.cleanupLoop (now : Nat) (entries : List (FlowKey × FlowId)) (h : Coherent m) :
    Coherent (cleanupLoop cfg now entries m).1 := by
  induction entries generalizing m with
  | nil => exact h
  | cons entry rest ih =>
      unfold UDPFlowManager.cleanupLoop
      split
      · exact ih (h.removeFlow entry.1)
      · exact ih h

theorem Coherent.cleanup (h : Coherent m) (cfg : RelaySettings) (now : Nat) :
    Coherent (m.cleanup cfg now).1 :=
  h.cleanupLoop now m.flows

theorem Coherent.handleFlowError (h : Coherent m) (key : FlowKey) :
    Coherent (m.handleFlowError key).1 := by
  unfold UDPFlowManager.handleFlowError
  split
  · exact h
  · exact (h.counters m.droppedPackets (m.sendErrors + 1)).removeFlow key

/-- A newer `lastSeen` changes no key, so the map and the cache still fit the
objects. -/
theorem Coherent.touch (h : Coherent m) {id : FlowId} {flow : Flow}
    (hflow : m.objects[id]? = some flow) (now : Nat) :
    Coherent { m with objects := m.objects.set id { flow with lastSeen := now } } := by
  have hlt : id < m.objects.length := (List.getElem?_eq_some_iff.mp hflow).1
  have touched : ∀ (i : FlowId) (old : Flow), m.objects[i]? = some old →
      ∃ new : Flow, (m.objects.set id { flow with lastSeen := now })[i]? = some new ∧
        new.key = old.key := by
    intro i old hold
    rw [List.getElem?_set]
    by_cases hi : id = i
    · subst hi
      rw [hold] at hflow
      refine ⟨{ flow with lastSeen := now }, by simp [hlt], ?_⟩
      rw [← Option.some.inj hflow]
    · exact ⟨old, by simp [hi, hold], rfl⟩
  refine ⟨?_, ?_, ?_⟩
  · intro key i hget
    obtain ⟨old, hold, hkey⟩ := h.entry key i hget
    obtain ⟨new, hnew, hsame⟩ := touched i old hold
    exact ⟨new, hnew, hsame.trans hkey⟩
  · intro new hnew
    rcases List.mem_or_eq_of_mem_set hnew with hold | rfl
    · exact h.own new hold
    · exact h.own flow (List.mem_of_getElem? hflow)
  · intro i hlast
    obtain ⟨old, hold, hget⟩ := h.last i hlast
    obtain ⟨new, hnew, hsame⟩ := touched i old hold
    exact ⟨new, hnew, by rw [hsame]; exact hget⟩

/-- A new flow, under a key that was free, is the object that the table finds. -/
theorem Coherent.createFlow (h : Coherent m) (flowInfo : FlowInfo) (now : Nat)
    (hnew : get m.flows flowInfo.toFlowKey = none) :
    Coherent (m.createFlow flowInfo.toFlowKey flowInfo now) := by
  have kept : ∀ (i : FlowId) (flow : Flow), m.objects[i]? = some flow →
      (m.createFlow flowInfo.toFlowKey flowInfo now).objects[i]? = some flow := by
    intro i flow hflow
    change (m.objects ++ _)[i]? = some flow
    rw [List.getElem?_append_left (List.getElem?_eq_some_iff.mp hflow).1]
    exact hflow
  refine ⟨?_, ?_, ?_⟩
  · intro key id hget
    change get (set m.flows flowInfo.toFlowKey m.objects.length) key = some id at hget
    rw [get_set] at hget
    split at hget
    · rename_i hkey
      obtain rfl := Option.some.inj hget
      exact ⟨{ flowInfo with key := flowInfo.toFlowKey, lastSeen := now },
        by simp [UDPFlowManager.createFlow], hkey⟩
    · obtain ⟨flow, hflow, hkey⟩ := h.entry key id hget
      exact ⟨flow, kept id flow hflow, hkey⟩
  · intro flow hflow
    rcases List.mem_append.mp hflow with hold | hlast
    · exact h.own flow hold
    · rw [List.mem_singleton.mp hlast]
  · intro id hlast
    obtain ⟨flow, hflow, hget⟩ := h.last id hlast
    refine ⟨flow, kept id flow hflow, ?_⟩
    change get (set m.flows flowInfo.toFlowKey m.objects.length) flow.key = some id
    have hne : flowInfo.toFlowKey ≠ flow.key := by
      intro hkey
      rw [← hkey, hnew] at hget
      cases hget
    rw [get_set, if_neg hne]
    exact hget

theorem removeFlow_absent (m : UDPFlowManager) (key : FlowKey) {k : FlowKey}
    (h : get m.flows k = none) : get (m.removeFlow key).1.flows k = none := by
  unfold removeFlow
  split
  · exact h
  · rw [get_delete]
    split
    · rfl
    · exact h

theorem cleanupLoop_absent (now : Nat) (entries : List (FlowKey × FlowId)) {k : FlowKey}
    (h : get m.flows k = none) : get (cleanupLoop cfg now entries m).1.flows k = none := by
  induction entries generalizing m with
  | nil => exact h
  | cons entry rest ih =>
      unfold cleanupLoop
      split
      · exact ih (removeFlow_absent m entry.1 h)
      · exact ih h

/-- A hit of the cache is a flow with the four values that were asked for. -/
theorem cachedFlow_eq_some {flowInfo : FlowInfo} {id : FlowId} {flow : Flow}
    (h : m.cachedFlow flowInfo = some (id, flow)) :
    m.lastFlow = some id ∧ m.objects[id]? = some flow ∧ flow.toFlowKey = flowInfo.toFlowKey := by
  unfold cachedFlow at h
  split at h
  · cases h
  · rename_i i hlast
    split at h
    · cases h
    · rename_i old hold
      split at h
      · rename_i hkey
        cases h
        exact ⟨hlast, hold, hkey⟩
      · cases h

/-- Sending on a flow changes its time stamp at most, or removes it when the
socket throws. -/
theorem Coherent.transmit {env : Environment} {key : FlowKey} {id : FlowId} {payload : Bytes}
    (h : Coherent m) (hget : get m.flows key = some id) :
    Coherent (m.transmit env key id payload).1 := by
  unfold UDPFlowManager.transmit
  obtain ⟨flow, hflow, hkey⟩ := h.entry key id hget
  rw [hflow]
  dsimp only
  have hlt : id < m.objects.length := (List.getElem?_eq_some_iff.mp hflow).1
  have touched := h.touch hflow env.now
  have cached : Coherent { m with
      lastFlow := some id
      objects := m.objects.set id { flow with lastSeen := env.now } } := by
    refine ⟨touched.entry, touched.own, ?_⟩
    intro i hlast
    obtain rfl := Option.some.inj hlast
    exact ⟨{ flow with lastSeen := env.now }, by simp [hlt], hkey ▸ hget⟩
  split
  · exact cached
  · exact cached.handleFlowError key

/-- Sending to a flow, which may be found in the cache, found in the table, or
created. -/
theorem Coherent.send {env : Environment} {payload : Bytes} {flowInfo : FlowInfo}
    (h : Coherent m) : Coherent (m.send cfg env payload flowInfo).1 := by
  unfold UDPFlowManager.send
  split
  · rename_i id flow hcached
    obtain ⟨hlast, hflow, -⟩ := cachedFlow_eq_some hcached
    obtain ⟨live, hlive, hget⟩ := h.last id hlast
    obtain rfl := Option.some.inj (hlive.symm.trans hflow)
    exact h.transmit hget
  · dsimp only
    split
    · rename_i id hget
      exact h.transmit hget
    · rename_i habsent
      have hclean := h.cleanup cfg env.now
      have hnew : get (m.cleanup cfg env.now).1.flows flowInfo.toFlowKey = none :=
        cleanupLoop_absent env.now m.flows habsent
      split
      · exact hclean.counters _ _
      · split
        · refine (hclean.createFlow flowInfo env.now hnew).transmit ?_
          change get (set _ _ _) _ = _
          rw [get_set, if_pos rfl]
        · exact hclean.counters _ _

theorem Coherent.close (h : Coherent m) : Coherent m.close.1 := by
  suffices all : ∀ (ks : List FlowKey) (acc : UDPFlowManager × List FlowEffect), Coherent acc.1 →
      Coherent (ks.foldl (fun (m, closed) key =>
        let (m, more) := m.removeFlow key
        (m, closed ++ more)) acc).1 from all _ (m, []) h
  intro ks
  induction ks with
  | nil => exact fun _ hacc => hacc
  | cons key rest ih => exact fun acc hacc => ih _ (hacc.removeFlow key)

theorem Coherent.message (h : Coherent m) (now : Nat) (id : FlowId) (payload : Bytes)
    (address : Address) (port : Port) : Coherent (m.message now id payload address port).1 := by
  unfold UDPFlowManager.message
  split
  · exact h
  · rename_i flow hflow
    split
    · exact h
    · exact h.touch hflow now

theorem Coherent.socketError (h : Coherent m) (id : FlowId) : Coherent (m.socketError id).1 := by
  unfold UDPFlowManager.socketError
  split
  · exact h
  · exact h.handleFlowError _

/-- Every method and every socket event keeps the map, the cache and the objects
in step. This is the step lemma of the invariant. -/
theorem Coherent.handle (h : Coherent m) (event : Event) : Coherent (m.handle cfg event).1 := by
  cases event with
  | send env payload flowInfo => exact h.send
  | message now id payload address port => exact h.message now id payload address port
  | socketError id => exact h.socketError id
  | cleanup now => exact h.cleanup cfg now
  | close => exact h.close

theorem Reachable.coherent (h : Reachable cfg m) : Coherent m := by
  have reach : Transition.Reaches (Step cfg) {} m := h
  refine reach.invariant ?_ coherent_nil
  rintro before event after hbefore rfl
  exact hbefore.handle event

/-- The datagrams put on sockets: flow, payload, destination. Closes and
responses are left out. -/
def sent (effects : List FlowEffect) : List (FlowId × Bytes × Port × Address) :=
  effects.filterMap fun
    | .send id payload port address => some (id, payload, port, address)
    | _ => none

@[simp] theorem sent_nil : sent [] = [] := rfl

theorem sent_append (xs ys : List FlowEffect) : sent (xs ++ ys) = sent xs ++ sent ys :=
  List.filterMap_append

/-- The datagram left unchanged on the flow of its own four-tuple, towards its
own destination, and nothing else was sent. -/
def Delivered (m' : UDPFlowManager) (effects : List FlowEffect) (payload : Bytes)
    (flowInfo : FlowInfo) : Prop :=
  ∃ (id : FlowId) (flow : Flow), m'.objects[id]? = some flow ∧
    flow.toFlowKey = flowInfo.toFlowKey ∧ get m'.flows flowInfo.toFlowKey = some id ∧
    sent effects = [(id, payload, flowInfo.remotePort, flowInfo.remoteIP)]

/-- Delivered, or else put on no socket and counted once as dropped or as
failed. The two counters are never raised together. -/
def Accounted (m m' : UDPFlowManager) (effects : List FlowEffect) (payload : Bytes)
    (flowInfo : FlowInfo) : Prop :=
  Delivered m' effects payload flowInfo ∧
      m'.droppedPackets = m.droppedPackets ∧ m'.sendErrors = m.sendErrors ∨
    sent effects = [] ∧
      (m'.droppedPackets = m.droppedPackets + 1 ∧ m'.sendErrors = m.sendErrors ∨
        m'.droppedPackets = m.droppedPackets ∧ m'.sendErrors = m.sendErrors + 1)

/-- Closing sockets sends nothing and counts nothing. Every loop that only
removes flows is quiet. -/
structure Quiet (m m' : UDPFlowManager) (effects : List FlowEffect) : Prop where
  sent : sent effects = []
  droppedPackets : m'.droppedPackets = m.droppedPackets
  sendErrors : m'.sendErrors = m.sendErrors

theorem removeFlow_quiet (m : UDPFlowManager) (key : FlowKey) :
    Quiet m (m.removeFlow key).1 (m.removeFlow key).2 := by
  unfold removeFlow
  split
  · exact ⟨rfl, rfl, rfl⟩
  · exact ⟨rfl, rfl, rfl⟩

/-- A round of the cleanup closes flows that have been idle; it sends nothing
and counts nothing. -/
theorem cleanupLoop_quiet (now : Nat) (entries : List (FlowKey × FlowId)) (m : UDPFlowManager) :
    Quiet m (cleanupLoop cfg now entries m).1 (cleanupLoop cfg now entries m).2 := by
  induction entries generalizing m with
  | nil => exact ⟨rfl, rfl, rfl⟩
  | cons entry rest ih =>
      unfold cleanupLoop
      split
      · have hfirst := removeFlow_quiet m entry.1
        have hrest := ih (m.removeFlow entry.1).1
        refine ⟨?_, hrest.droppedPackets.trans hfirst.droppedPackets,
          hrest.sendErrors.trans hfirst.sendErrors⟩
        change UDPFlowManager.sent (_ ++ _) = []
        rw [sent_append, hfirst.sent, hrest.sent]
        rfl
      · exact ih m

/-- A flow error on a live flow is counted once and sends nothing; removing the
flow is quiet. -/
theorem handleFlowError_counts {key : FlowKey} {id : FlowId} (h : get m.flows key = some id) :
    sent (m.handleFlowError key).2 = [] ∧
      (m.handleFlowError key).1.droppedPackets = m.droppedPackets ∧
      (m.handleFlowError key).1.sendErrors = m.sendErrors + 1 := by
  unfold handleFlowError
  rw [h]
  have hquiet := removeFlow_quiet { m with sendErrors := m.sendErrors + 1 } key
  refine ⟨?_, hquiet.droppedPackets, hquiet.sendErrors⟩
  change sent (_ ++ _) = []
  rw [sent_append, hquiet.sent]
  cases m.objects[id]? <;> rfl

variable {env : Environment} {payload : Bytes} {flowInfo : FlowInfo}

/-- What a quiet step precedes keeps its account: `send` may clean up before it
transmits. -/
theorem Accounted.after {m'' : UDPFlowManager} {closed effects : List FlowEffect}
    (h : Accounted m' m'' effects payload flowInfo) (hquiet : Quiet m m' closed) :
    Accounted m m'' (closed ++ effects) payload flowInfo := by
  have hsent : sent (closed ++ effects) = sent effects := by
    rw [sent_append, hquiet.sent, List.nil_append]
  unfold Accounted Delivered at *
  rw [hsent, ← hquiet.droppedPackets, ← hquiet.sendErrors]
  exact h

/-- A send on an existing flow is delivered, or it is counted once as failed. -/
theorem transmit_accounted {key : FlowKey} {id : FlowId} {flow : Flow}
    (hflow : m.objects[id]? = some flow) (hget : get m.flows key = some id)
    (hkey : key = flowInfo.toFlowKey) (hown : flow.toFlowKey = flowInfo.toFlowKey) :
    Accounted m (m.transmit env key id payload).1 (m.transmit env key id payload).2.1 payload
      flowInfo := by
  have hlt : id < m.objects.length := (List.getElem?_eq_some_iff.mp hflow).1
  unfold transmit
  rw [hflow]
  dsimp only
  split
  · have hport : flow.remotePort = flowInfo.remotePort := congrArg FlowKey.remotePort hown
    have haddress : flow.remoteIP = flowInfo.remoteIP := congrArg FlowKey.remoteIP hown
    refine .inl ⟨⟨id, { flow with lastSeen := env.now }, ?_, hown, hkey ▸ hget, ?_⟩, rfl, rfl⟩
    · simp [hlt]
    · simp [sent, hport, haddress]
  · obtain ⟨hsent, hdropped, herrors⟩ := handleFlowError_counts
      (m := { m with
        lastFlow := some id
        objects := m.objects.set id { flow with lastSeen := env.now } }) hget
    exact .inr ⟨hsent, .inr ⟨hdropped, herrors⟩⟩

/-- A datagram handed to the manager is accounted for, whichever way its flow is
found: cached, in the map, or made for it. -/
theorem Coherent.send_accounted (h : Coherent m) :
    Accounted m (m.send cfg env payload flowInfo).1 (m.send cfg env payload flowInfo).2.1 payload
      flowInfo := by
  unfold UDPFlowManager.send
  split
  · rename_i id flow hcached
    obtain ⟨hlast, hflow, hown⟩ := cachedFlow_eq_some hcached
    obtain ⟨live, hlive, hget⟩ := h.last id hlast
    obtain rfl := Option.some.inj (hlive.symm.trans hflow)
    have hkey := (h.own live (List.mem_of_getElem? hflow)).trans hown
    exact transmit_accounted hflow hget hkey hown
  · dsimp only
    split
    · rename_i id hget
      obtain ⟨flow, hflow, hkey⟩ := h.entry _ id hget
      have hown := (h.own flow (List.mem_of_getElem? hflow)).symm.trans hkey
      exact transmit_accounted hflow hget rfl hown
    · rename_i habsent
      have hquiet : Quiet m (m.cleanup cfg env.now).1 (m.cleanup cfg env.now).2 :=
        cleanupLoop_quiet env.now m.flows m
      have hcoherent := h.cleanup cfg env.now
      have hnew : get (m.cleanup cfg env.now).1.flows flowInfo.toFlowKey = none :=
        cleanupLoop_absent env.now m.flows habsent
      generalize m.cleanup cfg env.now = cleaned at hquiet hcoherent hnew
      obtain ⟨cleaned, closed⟩ := cleaned
      dsimp only at hquiet hcoherent hnew ⊢
      split
      · exact .inr ⟨hquiet.sent, .inl ⟨congrArg (· + 1) hquiet.droppedPackets, hquiet.sendErrors⟩⟩
      · split
        · have hflow : (cleaned.createFlow flowInfo.toFlowKey flowInfo env.now).objects[
              cleaned.objects.length]? =
                some { flowInfo with key := flowInfo.toFlowKey, lastSeen := env.now } := by
            exact List.getElem?_concat_length
          have hget : get (cleaned.createFlow flowInfo.toFlowKey flowInfo env.now).flows
              flowInfo.toFlowKey = some cleaned.objects.length := by
            change get (set _ _ _) _ = _
            rw [get_set, if_pos rfl]
          exact (transmit_accounted hflow hget rfl rfl).after
            ⟨hquiet.sent, hquiet.droppedPackets, hquiet.sendErrors⟩
        · refine .inr ⟨?_, .inr ⟨hquiet.droppedPackets, congrArg (· + 1) hquiet.sendErrors⟩⟩
          rw [sent_append, hquiet.sent]
          rfl

end UDPFlowManager

end RootlessRelay
