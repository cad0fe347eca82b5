import RootlessRelay.Net.Relay

/-!
# Rules of the admin server and their listeners

A rule of type `port` starts a TCP server, a UDP socket or both. They enter the
running maps in the callback of `listen` or `bind` only, and a deletion stops
what is in the maps. A completion that comes after its rule was deleted leaves
an open port that no request can close.

The listeners are a list in the order of their creation, each in one of three
phases, and an event is a request or what the host reports of a listener.
Completions are thus free to come late or never. `Tracked` relates rules,
listeners and running map for one protocol, so that both protocols share the
lemmas; along a run no open listener is without its rule exactly if no
completion comes for a rule that is gone.
-/

namespace RootlessRelay

open InsertionMap Transition

/-- The types of rules; `other` stands for any text that is neither of the two. -/
inductive RuleType
  | port
  | http
  | other
  deriving DecidableEq, Repr

/-- The protocols of a rule; `other` stands for any other element of the array. -/
inductive Protocol
  | tcp
  | udp
  | other
  deriving DecidableEq, Repr

/-- The JSON object of a `POST`: what decides which listeners a rule has. The
port and the address that they are bound to decide nothing here. -/
structure RuleBody where
  type : RuleType
  protocols : Option (List Protocol) := none
  deriving DecidableEq, Repr

/-- A rule as it is kept, with the number it has been given. -/
structure ProxyRule extends RuleBody where
  id : RuleId
  deriving DecidableEq, Repr

/-- The life of a listener. Between its start and its callback it is in no map. -/
inductive Phase
  | pending
  | listening
  | closed
  deriving DecidableEq, Repr

/-- A TCP server or a UDP socket, with the rule that its callbacks hold.
Deleting the rule from the list does not take it from them. -/
structure Listener where
  rule : ProxyRule
  phase : Phase := .pending
  deriving DecidableEq, Repr

/-- The state of the admin server. Servers and sockets are named by the order of
their creation. -/
structure AdminServer where
  nextRuleId : RuleId := 1
  proxyRules : List ProxyRule := []
  runningTcpProxies : List (RuleId × Nat) := []
  runningUdpProxies : List (RuleId × HostSocket) := []
  udpProxySockets : List (RuleId × HostSocket) := []
  tcpServers : List Listener := []
  udpSockets : List Listener := []
  deriving DecidableEq, Repr

/-- Put listener `i` into another phase; the others stay in theirs. -/
def setPhase (listeners : List Listener) (i : Nat) (phase : Phase) : List Listener :=
  listeners.modify i fun l => { l with phase }

/-- The phase of a listener, if there is one of this number. -/
def phaseOf (listeners : List Listener) (i : Nat) : Option Phase := listeners[i]?.map Listener.phase

namespace AdminServer

/-- `stopTcpForward`. `server.close()` of a TCP server that is closed already
does nothing. -/
def stopTcpForward (c : AdminServer) (ruleId : RuleId) : AdminServer :=
  match get c.runningTcpProxies ruleId with
  | none => c
  | some server =>
      { c with
        tcpServers := setPhase c.tcpServers server .closed
        runningTcpProxies := delete c.runningTcpProxies ruleId }

/-- `stopUdpForward`. A UDP socket that is closed already throws. -/
def stopUdpForward (c : AdminServer) (ruleId : RuleId) : Except String AdminServer :=
  match get c.runningUdpProxies ruleId with
  | none => .ok c
  | some socket =>
      if phaseOf c.udpSockets socket = some .closed then .error "Not running"
      else
        .ok { c with
          udpSockets := setPhase c.udpSockets socket .closed
          runningUdpProxies := delete c.runningUdpProxies ruleId
          udpProxySockets := delete c.udpProxySockets ruleId }

/-- `startTcpForward`: a new server, unless one is running for the rule. -/
def startTcpForward (c : AdminServer) (rule : ProxyRule) : AdminServer :=
  if hasKey c.runningTcpProxies rule.id then c
  else { c with tcpServers := c.tcpServers ++ [{ rule }] }

/-- `startUdpForward`: a new socket, unless one is running for the rule. -/
def startUdpForward (c : AdminServer) (rule : ProxyRule) : AdminServer :=
  if hasKey c.runningUdpProxies rule.id then c
  else { c with udpSockets := c.udpSockets ++ [{ rule }] }

/-- `startPortForward`, for each protocol of the rule. The body of a request is
not validated, so there may be none. -/
def startPortForward (c : AdminServer) (rule : ProxyRule) : Except String AdminServer :=
  match rule.protocols with
  | none => .error "Cannot read properties of undefined (reading 'includes')"
  | some protocols =>
      let c := if .tcp ∈ protocols then c.startTcpForward rule else c
      .ok (if .udp ∈ protocols then c.startUdpForward rule else c)

/-- `stopPortForward`, for each protocol of the rule. -/
def stopPortForward (c : AdminServer) (rule : ProxyRule) : Except String AdminServer :=
  match rule.protocols with
  | none => .error "Cannot read properties of undefined (reading 'includes')"
  | some protocols =>
      let c := if .tcp ∈ protocols then c.stopTcpForward rule.id else c
      if .udp ∈ protocols then c.stopUdpForward rule.id else .ok c

/-- `POST /api/rules`; `none` is a body that `JSON.parse` rejects. The rule is
kept before it is started. -/
def postRule (c : AdminServer) : Option RuleBody → Except String AdminServer
  | none => .error "SyntaxError"
  | some body =>
      let rule : ProxyRule := { body with id := c.nextRuleId }
      let c := { c with nextRuleId := c.nextRuleId + 1, proxyRules := c.proxyRules ++ [rule] }
      if rule.type = .port then c.startPortForward rule else .ok c

/-- `DELETE /api/rules/:id`: stop what runs for the rule, and forget it. -/
def deleteRule (c : AdminServer) (id : RuleId) : Except String AdminServer :=
  match c.proxyRules.find? (·.id = id) with
  | none => .ok c
  | some rule =>
      let stopped :=
        if rule.type = .port then c.stopPortForward rule
        else (c.stopTcpForward rule.id).stopUdpForward rule.id
      stopped.map fun c => { c with proxyRules := c.proxyRules.eraseP (·.id = id) }

/-- The callback of `server.listen`: the server is open, and enters the map. -/
def tcpListening (c : AdminServer) (server : Nat) : AdminServer :=
  match c.tcpServers[server]? with
  | none => c
  | some l =>
      { c with
        tcpServers := setPhase c.tcpServers server .listening
        runningTcpProxies := set c.runningTcpProxies l.rule.id server }

/-- The callback of `hostSocket.bind`: the socket is open, and enters both maps. -/
def udpListening (c : AdminServer) (socket : HostSocket) : AdminServer :=
  match c.udpSockets[socket]? with
  | none => c
  | some l =>
      { c with
        udpSockets := setPhase c.udpSockets socket .listening
        runningUdpProxies := set c.runningUdpProxies l.rule.id socket
        udpProxySockets := set c.udpProxySockets l.rule.id socket }

/-- The `error` handler of a TCP server only logs. A server that could not
listen never does; one that listens goes on. -/
def tcpError (c : AdminServer) (server : Nat) : AdminServer :=
  if phaseOf c.tcpServers server = some .pending then
    { c with tcpServers := setPhase c.tcpServers server .closed }
  else c

/-- The `error` handler of a UDP socket: it closes the socket, and then stops
the forward of its rule. -/
def udpError (c : AdminServer) (socket : HostSocket) : Except String AdminServer :=
  match c.udpSockets[socket]? with
  | none => .ok c
  | some l =>
      { c with udpSockets := setPhase c.udpSockets socket .closed }.stopUdpForward l.rule.id

/-- A request, or what the host reports of a server or a socket. -/
inductive Event
  | post (body : Option RuleBody)
  | remove (id : RuleId)
  | tcpListening (server : Nat)
  | tcpError (server : Nat)
  | udpListening (socket : HostSocket)
  | udpError (socket : HostSocket)

/-- What an event does. An error is an exception that nothing catches: it ends
the process. -/
def handle (c : AdminServer) : Event → Except String AdminServer
  | .post body => c.postRule body
  | .remove id => c.deleteRule id
  | .tcpListening server => .ok (c.tcpListening server)
  | .tcpError server => .ok (c.tcpError server)
  | .udpListening socket => .ok (c.udpListening socket)
  | .udpError socket => c.udpError socket

/-- A listener completes once, and a closed one reports nothing. Requests may
come at any time. -/
def enabled (c : AdminServer) : Event → Prop
  | .post _ | .remove _ => True
  | .tcpListening server => phaseOf c.tcpServers server = some .pending
  | .tcpError server =>
      phaseOf c.tcpServers server = some .pending ∨ phaseOf c.tcpServers server = some .listening
  | .udpListening socket => phaseOf c.udpSockets socket = some .pending
  | .udpError socket =>
      phaseOf c.udpSockets socket = some .pending ∨ phaseOf c.udpSockets socket = some .listening

/-- An event that is possible, and the state after it. There is no step where
the process ends. -/
def Step (c : AdminServer) (event : Event) (c' : AdminServer) : Prop :=
  c.enabled event ∧ c.handle event = .ok c'

end AdminServer

/-- Every open listener belongs to a rule that is still there, of whatever type
that rule is. -/
def Attached (rules : List ProxyRule) (listeners : List Listener) : Prop :=
  ∀ l ∈ listeners, l.phase = .listening → ∃ rule ∈ rules, rule.id = l.rule.id

namespace AdminServer

/-- No listener of either protocol is open without its rule. -/
structure NoOrphans (c : AdminServer) : Prop where
  tcp : Attached c.proxyRules c.tcpServers
  udp : Attached c.proxyRules c.udpSockets

/-- No completion is outstanding. Then every listener is open or closed. -/
def Settled (c : AdminServer) : Prop :=
  ∀ l, l ∈ c.tcpServers ∨ l ∈ c.udpSockets → l.phase ≠ .pending

/-- A completion for a rule that has been deleted, while the listener was not
yet in a map. -/
def Orphans (c : AdminServer) : Event → Prop
  | .tcpListening server =>
      ∃ l, c.tcpServers[server]? = some l ∧ ∀ rule ∈ c.proxyRules, rule.id ≠ l.rule.id
  | .udpListening socket =>
      ∃ l, c.udpSockets[socket]? = some l ∧ ∀ rule ∈ c.proxyRules, rule.id ≠ l.rule.id
  | _ => False

end AdminServer

/-- What holds between the rules, the listeners of a protocol and their running
map, along every run. -/
structure Tracked (protocol : Protocol) (rules : List ProxyRule) (nextRuleId : RuleId)
    (listeners : List Listener) (running : List (RuleId × Nat)) : Prop where
  known : ∀ rule ∈ rules, rule.id < nextRuleId
  started : ∀ (i : Nat) l, listeners[i]? = some l → l.rule.id < nextRuleId ∧ l.rule.type = .port ∧
    ∃ protocols, l.rule.protocols = some protocols ∧ protocol ∈ protocols
  single : ∀ (i j : Nat) l m, listeners[i]? = some l → listeners[j]? = some m →
    l.rule.id = m.rule.id → i = j
  sameRule : ∀ (i : Nat) l, listeners[i]? = some l → ∀ rule ∈ rules, rule.id = l.rule.id →
    rule = l.rule
  recorded : ∀ (i : Nat) l, listeners[i]? = some l → l.phase = .listening →
    get running l.rule.id = some i
  owner : ∀ id i, get running id = some i → ∃ l, listeners[i]? = some l ∧ l.rule.id = id

section Side

variable {protocol : Protocol} {rules : List ProxyRule} {nextRuleId : RuleId}
  {listeners : List Listener} {running : List (RuleId × Nat)} {i j : Nat} {l : Listener}
  {id : RuleId} {rule : ProxyRule} {phase : Phase}

theorem getElem?_setPhase (listeners : List Listener) (i j : Nat) (phase : Phase) :
    (setPhase listeners i phase)[j]? =
      if i = j then listeners[j]?.map fun l => { l with phase } else listeners[j]? := by
  rw [setPhase, List.getElem?_modify]
  split <;> simp_all

/-- A listener after a change of phase, and the one it was before. Its rule
never changes. -/
theorem of_getElem?_setPhase (h : (setPhase listeners i phase)[j]? = some l) :
    ∃ m, listeners[j]? = some m ∧ m.rule = l.rule ∧
      (i = j ∧ l.phase = phase ∨ i ≠ j ∧ m = l) := by
  rw [getElem?_setPhase] at h
  split at h
  · rename_i hij
    obtain ⟨m, hm, rfl⟩ := Option.map_eq_some_iff.mp h
    exact ⟨m, hm, rfl, .inl ⟨hij, rfl⟩⟩
  · rename_i hij
    exact ⟨l, h, rfl, .inr ⟨hij, rfl⟩⟩

theorem Tracked.init (protocol : Protocol) (nextRuleId : RuleId) :
    Tracked protocol [] nextRuleId [] [] := by
  constructor <;> simp

/-- A new rule that starts no listener of this protocol, such as a rule of type
`http`. -/
theorem Tracked.push (h : Tracked protocol rules nextRuleId listeners running)
    (hid : rule.id = nextRuleId) :
    Tracked protocol (rules ++ [rule]) (nextRuleId + 1) listeners running := by
  refine ⟨fun rule' hrule => ?_, fun i l hl => ?_, h.single, fun i l hl rule' hrule hsame => ?_,
    h.recorded, h.owner⟩
  · rcases List.mem_append.mp hrule with hold | hnew
    · exact Nat.lt_succ_of_lt (h.known rule' hold)
    · rw [List.mem_singleton.mp hnew, hid]
      exact Nat.lt_succ_self _
  · obtain ⟨hlt, hstarted⟩ := h.started i l hl
    exact ⟨Nat.lt_succ_of_lt hlt, hstarted⟩
  · rcases List.mem_append.mp hrule with hold | hnew
    · exact h.sameRule i l hl rule' hold hsame
    · rw [List.mem_singleton.mp hnew, hid] at hsame
      exact absurd hsame (Nat.ne_of_gt (h.started i l hl).1)

/-- A listener for the rule that was pushed last, which no map knows yet. -/
theorem Tracked.start (h : Tracked protocol rules nextRuleId listeners running)
    (hid : rule.id = nextRuleId) (htype : rule.type = .port)
    (hprotocol : ∃ protocols, rule.protocols = some protocols ∧ protocol ∈ protocols) :
    Tracked protocol (rules ++ [rule]) (nextRuleId + 1) (listeners ++ [⟨rule, .pending⟩])
      running := by
  have hold := h.push hid
  have hcases : ∀ {i : Nat} {l : Listener}, (listeners ++ [⟨rule, .pending⟩])[i]? = some l →
      listeners[i]? = some l ∨ i = listeners.length ∧ l = ⟨rule, .pending⟩ := by
    intro i l hl
    rw [List.getElem?_append] at hl
    split at hl
    · exact .inl hl
    · rename_i hge
      rw [List.getElem?_singleton] at hl
      split at hl
      · rename_i hzero
        exact .inr ⟨by omega, (Option.some.inj hl).symm⟩
      · cases hl
  have hfresh : ∀ {i : Nat} {l : Listener}, listeners[i]? = some l → l.rule.id ≠ rule.id := by
    intro i l hl hsame
    rw [hid] at hsame
    exact absurd hsame (Nat.ne_of_lt (h.started i l hl).1)
  refine ⟨hold.known, fun i l hl => ?_, fun i j l m hl hm hsame => ?_,
    fun i l hl rule' hrule hsame => ?_,
    fun i l hl hphase => ?_, fun id i hrunning => ?_⟩
  · rcases hcases hl with hl | ⟨-, rfl⟩
    · exact hold.started i l hl
    · exact ⟨hid ▸ Nat.lt_succ_self _, htype, hprotocol⟩
  · rcases hcases hl with hl | ⟨rfl, rfl⟩ <;> rcases hcases hm with hm | ⟨rfl, rfl⟩
    · exact h.single i j l m hl hm hsame
    · exact absurd hsame (hfresh hl)
    · exact absurd hsame.symm (hfresh hm)
    · rfl
  · rcases hcases hl with hl | ⟨-, rfl⟩
    · exact hold.sameRule i l hl rule' hrule hsame
    · rcases List.mem_append.mp hrule with hold | hnew
      · exact absurd (hsame.trans hid) (Nat.ne_of_lt (h.known rule' hold))
      · exact List.mem_singleton.mp hnew
  · rcases hcases hl with hl | ⟨-, rfl⟩
    · exact h.recorded i l hl hphase
    · cases hphase
  · obtain ⟨l, hl, hl'⟩ := h.owner id i hrunning
    exact ⟨l, (List.getElem?_append_left (List.getElem?_eq_some_iff.mp hl).1).trans hl, hl'⟩

/-- A new rule starts a listener of its protocol, or none. Both cases are lemmas
about `Tracked`. -/
def Starts (protocol : Protocol) (rule : ProxyRule) (listeners listeners' : List Listener) : Prop :=
  listeners' = listeners ∨ listeners' = listeners ++ [⟨rule, .pending⟩] ∧ rule.type = .port ∧
    ∃ protocols, rule.protocols = some protocols ∧ protocol ∈ protocols

theorem Tracked.starts (h : Tracked protocol rules nextRuleId listeners running)
    (hid : rule.id = nextRuleId) {listeners' : List Listener}
    (hstarts : Starts protocol rule listeners listeners') :
    Tracked protocol (rules ++ [rule]) (nextRuleId + 1) listeners' running := by
  obtain rfl | ⟨rfl, htype, hprotocol⟩ := hstarts
  · exact h.push hid
  · exact h.start hid htype hprotocol

/-- A listener that fails, or is closed. It may stay in the map until its rule
is stopped. -/
theorem Tracked.close (h : Tracked protocol rules nextRuleId listeners running) (i : Nat) :
    Tracked protocol rules nextRuleId (setPhase listeners i .closed) running := by
  refine ⟨h.known, fun j l hl => ?_, fun j k l m hl hm hsame => ?_,
    fun j l hl rule hrule hsame => ?_, fun j l hl hphase => ?_, fun id j hrunning => ?_⟩
  · obtain ⟨l', hl', hrule, -⟩ := of_getElem?_setPhase hl
    rw [← hrule]
    exact h.started j l' hl'
  · obtain ⟨l', hl', hrule, -⟩ := of_getElem?_setPhase hl
    obtain ⟨m', hm', hrule', -⟩ := of_getElem?_setPhase hm
    exact h.single j k l' m' hl' hm' (by rw [hrule, hrule', hsame])
  · obtain ⟨l', hl', hrule', -⟩ := of_getElem?_setPhase hl
    rw [← hrule'] at hsame ⊢
    exact h.sameRule j l' hl' rule hrule hsame
  · obtain ⟨l', hl', -, ⟨-, hclosed⟩ | ⟨-, rfl⟩⟩ := of_getElem?_setPhase hl
    · cases hclosed.symm.trans hphase
    · exact h.recorded j l' hl' hphase
  · obtain ⟨l, hl, hid⟩ := h.owner id j hrunning
    rw [getElem?_setPhase, hl]
    split
    · exact ⟨_, rfl, hid⟩
    · exact ⟨l, rfl, hid⟩

/-- A listener that is open now is recorded for its rule, as its callback does. -/
theorem Tracked.listening (h : Tracked protocol rules nextRuleId listeners running)
    (hl : listeners[i]? = some l) :
    Tracked protocol rules nextRuleId (setPhase listeners i .listening)
      (set running l.rule.id i) := by
  refine ⟨h.known, fun j m hm => ?_, fun j k m n hm hn hsame => ?_,
    fun j m hm rule hrule hsame => ?_, fun j m hm hphase => ?_, fun id j hrunning => ?_⟩
  · obtain ⟨m', hm', hrule, -⟩ := of_getElem?_setPhase hm
    rw [← hrule]
    exact h.started j m' hm'
  · obtain ⟨m', hm', hrule, -⟩ := of_getElem?_setPhase hm
    obtain ⟨n', hn', hrule', -⟩ := of_getElem?_setPhase hn
    exact h.single j k m' n' hm' hn' (by rw [hrule, hrule', hsame])
  · obtain ⟨m', hm', hrule', -⟩ := of_getElem?_setPhase hm
    rw [← hrule'] at hsame ⊢
    exact h.sameRule j m' hm' rule hrule hsame
  · obtain ⟨m', hm', hrule, ⟨rfl, -⟩ | ⟨hne, rfl⟩⟩ := of_getElem?_setPhase hm
    · obtain rfl := Option.some.inj (hl.symm.trans hm')
      rw [get_set, if_pos (congrArg ProxyRule.id hrule)]
    · have hother : l.rule.id ≠ m'.rule.id := fun hsame => hne (h.single i j l m' hl hm' hsame)
      rw [get_set, if_neg hother]
      exact h.recorded j m' hm' hphase
  · rw [get_set] at hrunning
    rw [getElem?_setPhase]
    split at hrunning
    · rename_i hid
      cases hrunning
      rw [if_pos rfl, hl]
      exact ⟨_, rfl, hid⟩
    · obtain ⟨m, hm, hid⟩ := h.owner id j hrunning
      rw [hm]
      split
      · exact ⟨_, rfl, hid⟩
      · exact ⟨m, rfl, hid⟩

/-- What `stopTcpForward` and `stopUdpForward` do to the listeners and their
map, when they do not throw. -/
def stopListener (listeners : List Listener) (running : List (RuleId × Nat)) (id : RuleId) :
    List Listener × List (RuleId × Nat) :=
  match get running id with
  | none => (listeners, running)
  | some i => (setPhase listeners i .closed, delete running id)

/-- No listener of a rule is open; one may still be about to open. -/
def Shut (id : RuleId) (listeners : List Listener) : Prop :=
  ∀ l ∈ listeners, l.phase = .listening → l.rule.id ≠ id

/-- Stopping a listener takes it out of its map and closes it. -/
theorem Tracked.stop (h : Tracked protocol rules nextRuleId listeners running) (id : RuleId) :
    Tracked protocol rules nextRuleId (stopListener listeners running id).1
        (stopListener listeners running id).2 ∧
      Shut id (stopListener listeners running id).1 := by
  unfold stopListener
  cases hid : get running id with
  | none =>
      refine ⟨h, fun l hl hphase hsame => ?_⟩
      obtain ⟨j, hj⟩ := List.mem_iff_getElem?.mp hl
      cases hid.symm.trans (hsame ▸ h.recorded j l hj hphase)
  | some i =>
      obtain ⟨owner, howner, rfl⟩ := h.owner id i hid
      have hclosed := h.close i
      have hshut : Shut owner.rule.id (setPhase listeners i .closed) := by
        intro l hl hphase hsame
        obtain ⟨j, hj⟩ := List.mem_iff_getElem?.mp hl
        obtain ⟨m, hm, hrule, ⟨-, hphase'⟩ | ⟨hne, rfl⟩⟩ := of_getElem?_setPhase hj
        · cases hphase'.symm.trans hphase
        · exact hne (h.single i j owner m howner hm hsame.symm)
      refine ⟨⟨hclosed.known, hclosed.started, hclosed.single, hclosed.sameRule,
        fun j l hl hphase => ?_, fun id j hrunning => ?_⟩, hshut⟩
      · have hne : owner.rule.id ≠ l.rule.id := fun hsame =>
          hshut l (List.mem_of_getElem? hl) hphase hsame.symm
        change get (delete running owner.rule.id) l.rule.id = _
        rw [get_delete, if_neg hne]
        exact hclosed.recorded j l hl hphase
      · change get (delete running owner.rule.id) id = _ at hrunning
        rw [get_delete] at hrunning
        split at hrunning
        · cases hrunning
        · exact hclosed.owner id j hrunning

/-- A rule without the protocol has no listener of it. -/
theorem Tracked.shut_of_absent (h : Tracked protocol rules nextRuleId listeners running)
    (hrule : rule ∈ rules) {protocols : List Protocol} (hprotocols : rule.protocols = some protocols)
    (habsent : protocol ∉ protocols) : Shut rule.id listeners := by
  intro l hl _ hsame
  obtain ⟨i, hi⟩ := List.mem_iff_getElem?.mp hl
  obtain ⟨-, -, started, hstarted, hmem⟩ := h.started i l hi
  rw [h.sameRule i l hi rule hrule hsame.symm] at hprotocols
  cases hstarted.symm.trans hprotocols
  exact habsent hmem

theorem Tracked.erase (h : Tracked protocol rules nextRuleId listeners running) (id : RuleId) :
    Tracked protocol (rules.eraseP (·.id = id)) nextRuleId listeners running :=
  ⟨fun rule hrule => h.known rule (List.mem_of_mem_eraseP hrule), h.started, h.single,
    fun i l hl rule hrule => h.sameRule i l hl rule (List.mem_of_mem_eraseP hrule), h.recorded,
    h.owner⟩

theorem Attached.push (h : Attached rules listeners) (rule : ProxyRule) :
    Attached (rules ++ [rule]) listeners := by
  intro l hl hphase
  obtain ⟨rule', hrule, hid⟩ := h l hl hphase
  exact ⟨rule', List.mem_append_left _ hrule, hid⟩

theorem Attached.starts (h : Attached rules listeners) {listeners' : List Listener}
    (hstarts : Starts protocol rule listeners listeners') : Attached (rules ++ [rule]) listeners' := by
  obtain rfl | ⟨rfl, -⟩ := hstarts
  · exact h.push rule
  · intro l hl hphase
    rcases List.mem_append.mp hl with hmem | hnew
    · exact h.push rule l hmem hphase
    · rw [List.mem_singleton.mp hnew] at hphase
      cases hphase

theorem Attached.close (h : Attached rules listeners) (i : Nat) :
    Attached rules (setPhase listeners i .closed) := by
  intro l hl hphase
  obtain ⟨j, hj⟩ := List.mem_iff_getElem?.mp hl
  obtain ⟨m, hm, -, ⟨-, hclosed⟩ | ⟨-, rfl⟩⟩ := of_getElem?_setPhase hj
  · cases hclosed.symm.trans hphase
  · exact h m (List.mem_of_getElem? hm) hphase

theorem Attached.stop (h : Attached rules listeners) (running : List (RuleId × Nat))
    (id : RuleId) : Attached rules (stopListener listeners running id).1 := by
  unfold stopListener
  cases get running id with
  | none => exact h
  | some i => exact h.close i

/-- A completion keeps the property exactly if its rule is still there. This is
where the condition on runs comes from. -/
theorem Attached.listening_iff (h : Attached rules listeners) (hl : listeners[i]? = some l) :
    Attached rules (setPhase listeners i .listening) ↔ ∃ rule ∈ rules, rule.id = l.rule.id := by
  constructor
  · intro hall
    have hnew : (setPhase listeners i .listening)[i]? = some { l with phase := .listening } := by
      rw [getElem?_setPhase, if_pos rfl, hl]
      rfl
    exact hall { l with phase := .listening } (List.mem_of_getElem? hnew) rfl
  · intro hrule m hm hphase
    obtain ⟨j, hj⟩ := List.mem_iff_getElem?.mp hm
    obtain ⟨m', hm', hsame, ⟨rfl, -⟩ | ⟨-, rfl⟩⟩ := of_getElem?_setPhase hj
    · obtain rfl := Option.some.inj (hl.symm.trans hm')
      rw [← hsame]
      exact hrule
    · exact h m' (List.mem_of_getElem? hm') hphase

theorem Attached.erase (h : Attached rules listeners) (hshut : Shut id listeners) :
    Attached (rules.eraseP (·.id = id)) listeners := by
  intro l hl hphase
  obtain ⟨rule, hrule, hid⟩ := h l hl hphase
  have hne : ¬decide (rule.id = id) = true := by
    rw [hid, decide_eq_true_eq]
    exact hshut l hl hphase
  exact ⟨rule, (List.mem_eraseP_of_neg (p := fun rule => rule.id = id) hne).mpr hrule, hid⟩

end Side

namespace AdminServer

variable {c c' : AdminServer} {event : Event} {id : RuleId} {rule : ProxyRule}

/-- The maps and listeners of both protocols fit the rules, and the numbers of
new rules are fresh. -/
structure Sound (c : AdminServer) : Prop where
  tcp : Tracked .tcp c.proxyRules c.nextRuleId c.tcpServers c.runningTcpProxies
  udp : Tracked .udp c.proxyRules c.nextRuleId c.udpSockets c.runningUdpProxies

theorem sound_init : Sound {} := ⟨.init _ _, .init _ _⟩

theorem noOrphans_init : NoOrphans {} := ⟨by rintro l ⟨⟩, by rintro l ⟨⟩⟩

theorem stopTcpForward_eq (c : AdminServer) (id : RuleId) : c.stopTcpForward id =
    { c with
      tcpServers := (stopListener c.tcpServers c.runningTcpProxies id).1
      runningTcpProxies := (stopListener c.tcpServers c.runningTcpProxies id).2 } := by
  unfold stopTcpForward stopListener
  cases get c.runningTcpProxies id <;> rfl

/-- What stopping a UDP forward leaves, if it does not throw. -/
theorem stopUdpForward_ok (h : c.stopUdpForward id = .ok c') : ∃ udpProxySockets, c' =
    { c with
      udpSockets := (stopListener c.udpSockets c.runningUdpProxies id).1
      runningUdpProxies := (stopListener c.udpSockets c.runningUdpProxies id).2
      udpProxySockets } ∧
    (udpProxySockets = c.udpProxySockets ∨ udpProxySockets = delete c.udpProxySockets id) := by
  unfold stopUdpForward at h
  unfold stopListener
  cases hid : get c.runningUdpProxies id with
  | none =>
      rw [hid] at h
      cases h
      exact ⟨c.udpProxySockets, rfl, .inl rfl⟩
  | some socket =>
      rw [hid] at h
      dsimp only at h
      split at h
      · cases h
      · cases h
        exact ⟨delete c.udpProxySockets id, rfl, .inr rfl⟩

/-- The rules stay, and what was sound and attached is so afterwards. Stopping a
forward settles. -/
structure Settles (c c' : AdminServer) : Prop where
  rules : c'.proxyRules = c.proxyRules
  sound : Sound c'
  attached : NoOrphans c → NoOrphans c'

theorem Settles.trans {c'' : AdminServer} (first : Settles c c') (second : Settles c' c'') :
    Settles c c'' :=
  ⟨second.rules.trans first.rules, second.sound, fun h => second.attached (first.attached h)⟩

theorem Sound.stopTcp (h : Sound c) (id : RuleId) :
    Settles c (c.stopTcpForward id) ∧ Shut id (c.stopTcpForward id).tcpServers := by
  rw [stopTcpForward_eq]
  obtain ⟨htracked, hshut⟩ := h.tcp.stop id
  exact ⟨⟨rfl, ⟨htracked, h.udp⟩, fun hc => ⟨hc.tcp.stop _ id, hc.udp⟩⟩, hshut⟩

theorem Sound.stopUdp (h : Sound c) (hok : c.stopUdpForward id = .ok c') :
    Settles c c' ∧ c'.tcpServers = c.tcpServers ∧ Shut id c'.udpSockets := by
  obtain ⟨udpProxySockets, rfl, -⟩ := stopUdpForward_ok hok
  obtain ⟨htracked, hshut⟩ := h.udp.stop id
  exact ⟨⟨rfl, ⟨h.tcp, htracked⟩, fun hc => ⟨hc.tcp, hc.udp.stop _ id⟩⟩, rfl, hshut⟩

/-- `stopPortForward` shuts every listener of its rule, for the protocols the
rule has; of others it has no listeners. -/
theorem Sound.stopPort (h : Sound c) (hrule : rule ∈ c.proxyRules)
    (hok : c.stopPortForward rule = .ok c') :
    Settles c c' ∧ Shut rule.id c'.tcpServers ∧ Shut rule.id c'.udpSockets := by
  unfold stopPortForward at hok
  cases hprotocols : rule.protocols with
  | none =>
      rw [hprotocols] at hok
      cases hok
  | some protocols =>
      rw [hprotocols] at hok
      dsimp only at hok
      have hfirst : Settles c (if .tcp ∈ protocols then c.stopTcpForward rule.id else c) ∧
          Shut rule.id (if .tcp ∈ protocols then c.stopTcpForward rule.id else c).tcpServers := by
        split
        · exact h.stopTcp rule.id
        · rename_i habsent
          exact ⟨⟨rfl, h, id⟩, h.tcp.shut_of_absent hrule hprotocols habsent⟩
      generalize (if .tcp ∈ protocols then c.stopTcpForward rule.id else c) = c₁ at hok hfirst
      obtain ⟨hsettles, hshut⟩ := hfirst
      split at hok
      · obtain ⟨hsecond, hservers, hshut'⟩ := hsettles.sound.stopUdp hok
        rw [hservers]
        exact ⟨hsettles.trans hsecond, hshut, hshut'⟩
      · rename_i habsent
        cases hok
        have hrule' : rule ∈ c'.proxyRules := by
          rw [hsettles.rules]
          exact hrule
        exact ⟨hsettles, hshut, hsettles.sound.udp.shut_of_absent hrule' hprotocols habsent⟩

/-- A deletion leaves no listener of its rule open, so that none is orphaned by
it. -/
theorem Sound.deleteRule (h : Sound c) (hok : c.deleteRule id = .ok c') :
    Sound c' ∧ (NoOrphans c → NoOrphans c') := by
  unfold AdminServer.deleteRule at hok
  cases hfind : c.proxyRules.find? (·.id = id) with
  | none =>
      rw [hfind] at hok
      cases hok
      exact ⟨h, fun hc => hc⟩
  | some rule =>
      rw [hfind] at hok
      dsimp only at hok
      have hrule : rule ∈ c.proxyRules := List.mem_of_find?_eq_some hfind
      have hid : rule.id = id := by simpa using List.find?_some hfind
      have hstopped : ∀ c₁, (if rule.type = .port then c.stopPortForward rule
          else (c.stopTcpForward rule.id).stopUdpForward rule.id) = .ok c₁ →
          Settles c c₁ ∧ Shut rule.id c₁.tcpServers ∧ Shut rule.id c₁.udpSockets := by
        intro c₁ hc₁
        split at hc₁
        · exact h.stopPort hrule hc₁
        · obtain ⟨hfirst, hshut⟩ := h.stopTcp rule.id
          obtain ⟨hsecond, hservers, hshut'⟩ := hfirst.sound.stopUdp hc₁
          rw [hservers]
          exact ⟨hfirst.trans hsecond, hshut, hshut'⟩
      cases hstop : (if rule.type = .port then c.stopPortForward rule
          else (c.stopTcpForward rule.id).stopUdpForward rule.id) with
      | error message =>
          rw [hstop] at hok
          cases hok
      | ok c₁ =>
          rw [hstop] at hok
          cases hok
          obtain ⟨hsettles, htcp, hudp⟩ := hstopped c₁ hstop
          rw [hid] at htcp hudp
          refine ⟨⟨hsettles.sound.tcp.erase id, hsettles.sound.udp.erase id⟩, fun hc => ?_⟩
          have hc₁ := hsettles.attached hc
          exact ⟨hc₁.tcp.erase htcp, hc₁.udp.erase hudp⟩

/-- Starting a port forward starts one listener for each of the protocols of the
rule. -/
theorem startPortForward_ok (htype : rule.type = .port) (hok : c.startPortForward rule = .ok c') :
    ∃ tcpServers udpSockets, c' = { c with tcpServers, udpSockets } ∧
      Starts .tcp rule c.tcpServers tcpServers ∧ Starts .udp rule c.udpSockets udpSockets := by
  unfold startPortForward at hok
  cases hprotocols : rule.protocols with
  | none =>
      rw [hprotocols] at hok
      cases hok
  | some protocols =>
      rw [hprotocols] at hok
      cases hok
      have htcp : ∃ tcpServers, (if .tcp ∈ protocols then c.startTcpForward rule else c) =
          { c with tcpServers } ∧ Starts .tcp rule c.tcpServers tcpServers := by
        unfold startTcpForward
        split
        · rename_i hmem
          split
          · exact ⟨_, rfl, .inl rfl⟩
          · exact ⟨_, rfl, .inr ⟨rfl, htype, protocols, hprotocols, hmem⟩⟩
        · exact ⟨_, rfl, .inl rfl⟩
      obtain ⟨tcpServers, hfirst, hstarts⟩ := htcp
      rw [hfirst]
      unfold startUdpForward
      split
      · rename_i hmem
        split
        · exact ⟨tcpServers, c.udpSockets, rfl, hstarts, .inl rfl⟩
        · exact ⟨tcpServers, _, rfl, hstarts, .inr ⟨rfl, htype, protocols, hprotocols, hmem⟩⟩
      · exact ⟨tcpServers, c.udpSockets, rfl, hstarts, .inl rfl⟩

/-- A new rule gets a number that no listener has been started for. -/
theorem Sound.postRule (h : Sound c) {body : Option RuleBody} (hok : c.postRule body = .ok c') :
    Sound c' ∧ (NoOrphans c → NoOrphans c') := by
  cases body with
  | none => cases hok
  | some body =>
      unfold AdminServer.postRule at hok
      dsimp only at hok
      split at hok
      · rename_i htype
        obtain ⟨tcpServers, udpSockets, rfl, htcp, hudp⟩ := startPortForward_ok htype hok
        exact ⟨⟨h.tcp.starts rfl htcp, h.udp.starts rfl hudp⟩,
          fun hc => ⟨hc.tcp.starts htcp, hc.udp.starts hudp⟩⟩
      · cases hok
        exact ⟨⟨h.tcp.push rfl, h.udp.push rfl⟩,
          fun hc => ⟨hc.tcp.push _, hc.udp.push _⟩⟩

/-- A step keeps every open listener with its rule exactly if it is no
completion for a rule that has been deleted. -/
theorem Sound.step (h : Sound c) (hstep : Step c event c') :
    Sound c' ∧ (NoOrphans c → (NoOrphans c' ↔ ¬c.Orphans event)) := by
  obtain ⟨henabled, hok⟩ := hstep
  cases event with
  | post body =>
      obtain ⟨hsound, hattached⟩ := h.postRule hok
      exact ⟨hsound, fun hc => iff_of_true (hattached hc) (fun hno => hno)⟩
  | remove id =>
      obtain ⟨hsound, hattached⟩ := h.deleteRule hok
      exact ⟨hsound, fun hc => iff_of_true (hattached hc) (fun hno => hno)⟩
  | tcpListening server =>
      cases hok
      obtain ⟨l, hl, -⟩ := Option.map_eq_some_iff.mp henabled
      have hnew : c.tcpListening server = { c with
          tcpServers := setPhase c.tcpServers server .listening
          runningTcpProxies := set c.runningTcpProxies l.rule.id server } := by
        unfold AdminServer.tcpListening
        rw [hl]
      rw [hnew]
      refine ⟨⟨h.tcp.listening hl, h.udp⟩, fun hc => ?_⟩
      have hiff := hc.tcp.listening_iff hl
      constructor
      · rintro hall ⟨l', hl', hno⟩
        obtain rfl := Option.some.inj (hl.symm.trans hl')
        obtain ⟨rule, hrule, hid⟩ := hiff.mp hall.tcp
        exact hno rule hrule hid
      · intro hno
        refine ⟨hiff.mpr ?_, hc.udp⟩
        by_contra hgone
        exact hno ⟨l, hl, fun rule hrule hid => hgone ⟨rule, hrule, hid⟩⟩
  | tcpError server =>
      cases hok
      unfold AdminServer.tcpError
      split
      · exact ⟨⟨h.tcp.close server, h.udp⟩,
          fun hc => iff_of_true ⟨hc.tcp.close server, hc.udp⟩ (fun hno => hno)⟩
      · exact ⟨h, fun hc => iff_of_true hc (fun hno => hno)⟩
  | udpListening socket =>
      cases hok
      obtain ⟨l, hl, -⟩ := Option.map_eq_some_iff.mp henabled
      have hnew : c.udpListening socket = { c with
          udpSockets := setPhase c.udpSockets socket .listening
          runningUdpProxies := set c.runningUdpProxies l.rule.id socket
          udpProxySockets := set c.udpProxySockets l.rule.id socket } := by
        unfold AdminServer.udpListening
        rw [hl]
      rw [hnew]
      refine ⟨⟨h.tcp, h.udp.listening hl⟩, fun hc => ?_⟩
      have hiff := hc.udp.listening_iff hl
      constructor
      · rintro hall ⟨l', hl', hno⟩
        obtain rfl := Option.some.inj (hl.symm.trans hl')
        obtain ⟨rule, hrule, hid⟩ := hiff.mp hall.udp
        exact hno rule hrule hid
      · intro hno
        refine ⟨hc.tcp, hiff.mpr ?_⟩
        by_contra hgone
        exact hno ⟨l, hl, fun rule hrule hid => hgone ⟨rule, hrule, hid⟩⟩
  | udpError socket =>
      have hok : c.udpError socket = .ok c' := hok
      unfold AdminServer.udpError at hok
      split at hok
      · cases hok
        exact ⟨h, fun hc => iff_of_true hc (fun hno => hno)⟩
      · have hclosed : Sound { c with udpSockets := setPhase c.udpSockets socket .closed } :=
          ⟨h.tcp, h.udp.close socket⟩
        obtain ⟨hsettles, -, -⟩ := hclosed.stopUdp hok
        exact ⟨hsettles.sound, fun hc =>
          iff_of_true (hsettles.attached ⟨hc.tcp, hc.udp.close socket⟩) (fun hno => hno)⟩

/-- A run keeps every open listener with a rule that is still there exactly if
no completion in it comes after its rule was deleted. -/
theorem run_noOrphans_iff {events : List Event} :
    Run (fun c event c' => Step c event c' ∧ c'.NoOrphans) {} events c ↔
      Run (Restrict Step fun c event => ¬c.Orphans event) {} events c := by
  refine Run.restrict_iff (I := fun c => c.Sound ∧ c.NoOrphans) ⟨sound_init, noOrphans_init⟩ ?_ ?_
  · exact fun t e u ht hstep hu => ⟨(ht.1.step hstep).1, hu⟩
  · exact fun t e u ht hstep => (ht.1.step hstep).2 ht.2

/-- A rule with both protocols is deleted before its server and its socket
report: both ports stay open, and no rule is left to delete. -/
theorem exists_orphans :
    ∃ (events : List Event) (c : AdminServer), Run Step {} events c ∧ c.Settled ∧
      c.proxyRules = [] ∧ phaseOf c.tcpServers 0 = some .listening ∧
      phaseOf c.udpSockets 0 = some .listening ∧ ¬c.NoOrphans := by
  let body : RuleBody := ⟨.port, some [.tcp, .udp]⟩
  let rule : ProxyRule := ⟨body, 1⟩
  let final : AdminServer :=
    { nextRuleId := 2
      runningTcpProxies := [(1, 0)]
      runningUdpProxies := [(1, 0)]
      udpProxySockets := [(1, 0)]
      tcpServers := [⟨rule, .listening⟩]
      udpSockets := [⟨rule, .listening⟩] }
  refine ⟨[.post (some body), .remove 1, .tcpListening 0, .udpListening 0], final,
    .cons ⟨trivial, rfl⟩ (.cons ⟨trivial, rfl⟩ (.cons ⟨rfl, rfl⟩ (.single ⟨rfl, rfl⟩))), ?_, rfl, rfl,
    rfl, fun hall => ?_⟩
  · rintro l (hl | hl)
    all_goals
      rw [List.mem_singleton.mp hl]
      decide
  · obtain ⟨rule, hrule, -⟩ := hall.tcp _ (List.mem_singleton_self _) rfl
    cases hrule

theorem stopUdpForward_sockets (h : c.stopUdpForward id = .ok c') :
    c'.udpProxySockets = c.udpProxySockets ∨
      c'.udpProxySockets = delete c.udpProxySockets id := by
  obtain ⟨udpProxySockets, rfl, hsockets⟩ := stopUdpForward_ok h
  exact hsockets

/-- Deleting a rule forgets its UDP socket at most. -/
theorem deleteRule_sockets (h : c.deleteRule id = .ok c') :
    c'.udpProxySockets = c.udpProxySockets ∨
      ∃ id, c'.udpProxySockets = delete c.udpProxySockets id := by
  have hstop : ∀ {c₁ c₂ : AdminServer} {ruleId : RuleId},
      c₁.udpProxySockets = c.udpProxySockets → c₁.stopUdpForward ruleId = .ok c₂ →
      c₂.udpProxySockets = c.udpProxySockets ∨
        ∃ id, c₂.udpProxySockets = delete c.udpProxySockets id := by
    intro c₁ c₂ ruleId hsame hok
    rw [← hsame]
    exact (stopUdpForward_sockets hok).imp_right fun hdelete => ⟨ruleId, hdelete⟩
  have htcp : ∀ ruleId, (c.stopTcpForward ruleId).udpProxySockets = c.udpProxySockets := by
    intro ruleId
    rw [stopTcpForward_eq]
  unfold AdminServer.deleteRule at h
  split at h
  · cases h
    exact .inl rfl
  · rename_i rule hfind
    obtain ⟨c₁, hok, rfl⟩ : ∃ c₁, (if rule.type = .port then c.stopPortForward rule
        else (c.stopTcpForward rule.id).stopUdpForward rule.id) = .ok c₁ ∧
        { c₁ with proxyRules := c₁.proxyRules.eraseP (·.id = id) } = c' := by
      dsimp only at h
      revert h
      cases (if rule.type = .port then c.stopPortForward rule
        else (c.stopTcpForward rule.id).stopUdpForward rule.id) with
      | error message => rintro ⟨⟩
      | ok c₁ => exact fun h => ⟨c₁, rfl, Except.ok.inj h⟩
    change c₁.udpProxySockets = _ ∨ ∃ id, c₁.udpProxySockets = _
    split at hok
    · unfold stopPortForward at hok
      split at hok
      · cases hok
      · dsimp only at hok
        split at hok
        · refine hstop ?_ hok
          split
          · exact htcp rule.id
          · rfl
        · cases hok
          refine .inl ?_
          split
          · exact htcp rule.id
          · rfl
    · exact hstop (htcp rule.id) hok

/-- `udpProxySockets` of the relay follows: what an event does to the table is
what one of the relay's own events does, or nothing. -/
theorem udpProxySockets_simulated (cfg : RelaySettings) {r : Relay}
    (hsame : r.udpProxySockets = c.udpProxySockets) (hstep : Step c event c') :
    ∃ events, r.possible cfg events = true ∧
      r.after cfg events = { r with udpProxySockets := c'.udpProxySockets } := by
  have hidle : c'.udpProxySockets = c.udpProxySockets → ∃ events,
      r.possible cfg events = true ∧
        r.after cfg events = { r with udpProxySockets := c'.udpProxySockets } := by
    intro hkept
    refine ⟨[], rfl, ?_⟩
    rw [hkept, ← hsame]
    rfl
  have hstopped : ∀ id, c'.udpProxySockets = delete c.udpProxySockets id → ∃ events,
      r.possible cfg events = true ∧
        r.after cfg events = { r with udpProxySockets := c'.udpProxySockets } := by
    intro id hdelete
    refine ⟨[.udpStopped id], rfl, ?_⟩
    rw [hdelete, ← hsame]
    rfl
  obtain ⟨henabled, hok⟩ := hstep
  cases event with
  | post body =>
      refine hidle ?_
      cases body with
      | none => cases hok
      | some body =>
          have hok : c.postRule (some body) = .ok c' := hok
          unfold AdminServer.postRule at hok
          dsimp only at hok
          split at hok
          · rename_i htype
            obtain ⟨tcpServers, udpSockets, rfl, -, -⟩ := startPortForward_ok htype hok
            rfl
          · cases hok
            rfl
  | remove id =>
      obtain hkept | ⟨id, hdelete⟩ := deleteRule_sockets hok
      · exact hidle hkept
      · exact hstopped id hdelete
  | tcpListening server =>
      cases hok
      refine hidle ?_
      unfold AdminServer.tcpListening
      split <;> rfl
  | tcpError server =>
      cases hok
      refine hidle ?_
      unfold AdminServer.tcpError
      split <;> rfl
  | udpListening socket =>
      cases hok
      obtain ⟨l, hl, -⟩ := Option.map_eq_some_iff.mp henabled
      refine ⟨[.udpListening l.rule.id socket], rfl, ?_⟩
      unfold AdminServer.udpListening
      rw [hl, ← hsame]
      rfl
  | udpError socket =>
      have hok : c.udpError socket = .ok c' := hok
      unfold AdminServer.udpError at hok
      split at hok
      · cases hok
        exact hidle rfl
      · obtain hkept | hdelete := stopUdpForward_sockets hok
        · exact hidle hkept
        · exact hstopped _ hdelete

end AdminServer

end RootlessRelay
