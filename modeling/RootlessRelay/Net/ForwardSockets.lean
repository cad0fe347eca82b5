import RootlessRelay.Net.Forwards
import RootlessRelay.Udp.Demux

/-!
# Closing the sockets of UDP forwards

The `error` handler of a socket closes it and then calls `stopUdpForward`, which
closes what the map has for the rule. Once the socket is bound that is the same
socket, and its second close throws out of the handler. A run is therefore one
of outcomes here: states, and at the end possibly the exception that ends the
process.

Two maps hold the sockets of a rule, one for the admin server and one that
sessions send by. They change together (`Mapped`), and a closed socket is in
neither (`Retired`). Both are kept along every run in which no bound socket
fails and no bind completes late, and the theorem of this module says that
nothing is closed twice in exactly these runs.
-/

namespace RootlessRelay

open InsertionMap Transition

/-- A socket that is closed, and one whose rule was deleted, is in neither map.
Nothing is sent on it any more. -/
structure Retired (rules : List ProxyRule) (listeners : List Listener)
    (running sockets : List (RuleId × HostSocket)) : Prop where
  closed : ∀ (i : Nat) l, listeners[i]? = some l → l.phase = .closed →
    ∀ id, get running id ≠ some i ∧ get sockets id ≠ some i
  deleted : ∀ (i : Nat) l, listeners[i]? = some l → (∀ rule ∈ rules, rule.id ≠ l.rule.id) →
    ∀ id, get running id ≠ some i ∧ get sockets id ≠ some i

/-- The two maps are one, and hold no socket whose bind is outstanding. -/
structure Mapped (listeners : List Listener) (running sockets : List (RuleId × HostSocket)) :
    Prop where
  agree : ∀ id, get sockets id = get running id
  bound : ∀ id (i : Nat) l, get running id = some i → listeners[i]? = some l → l.phase ≠ .pending

namespace AdminServer

/-- The state that an event leads to, or an exception that nothing catches. No
event follows an exception. -/
abbrev Outcome := Except String AdminServer

/-- One event that is possible in a state, and what it leads to. -/
def Fires (o : Outcome) (event : Event) (o' : Outcome) : Prop :=
  ∃ c, o = .ok c ∧ c.enabled event ∧ o' = c.handle event

/-- Sockets that failed or lost their rule are in no map, and no datagram that a
session gets from its VM is sent on a closed one. -/
structure SocketsRetired (c : AdminServer) : Prop where
  retired : Retired c.proxyRules c.udpSockets c.runningUdpProxies c.udpProxySockets
  sends : ∀ (cfg : RelaySettings) (r : Relay) (env : Environment) (session : SessionId)
    (parsed : ParsedIPv4) (socket : HostSocket) (payload : Bytes) (port : Port) (address : Address),
    r.udpProxySockets = c.udpProxySockets →
    .client socket payload port address ∈ (r.handleUDP cfg env session parsed).2 →
    phaseOf c.udpSockets socket ≠ some .closed

/-- No socket was closed a second time: in a state the maps are right, and an
exception is not that of a second close. -/
def ClosedOnce : Outcome → Prop
  | .ok c => c.SocketsRetired
  | .error message => message ≠ "Not running"

/-- A bound socket that fails, or a bind that completes for a rule that was
deleted. It is decided by the state before the event. -/
def Disturbs (c : AdminServer) : Event → Prop
  | .udpError socket => phaseOf c.udpSockets socket = some .listening
  | .udpListening socket =>
      ∃ l, c.udpSockets[socket]? = some l ∧ ∀ rule ∈ c.proxyRules, rule.id ≠ l.rule.id
  | _ => False

/-- The event disturbs no sockets, in whatever state it comes. -/
def Undisturbed (o : Outcome) (event : Event) : Prop := ∀ c, o = .ok c → ¬c.Disturbs event

end AdminServer

section Sockets

variable {rules : List ProxyRule} {nextRuleId : RuleId} {listeners listeners' : List Listener}
  {running sockets : List (RuleId × HostSocket)} {i j : Nat} {l : Listener} {id : RuleId}
  {rule : ProxyRule}

theorem Mapped.starts (h : Mapped listeners running sockets)
    (htracked : Tracked .udp rules nextRuleId listeners running)
    (hstarts : Starts .udp rule listeners listeners') : Mapped listeners' running sockets := by
  obtain rfl | ⟨rfl, -⟩ := hstarts
  · exact h
  refine ⟨h.agree, fun id i l hid hl => ?_⟩
  obtain ⟨m, hm, -⟩ := htracked.owner id i hid
  rw [List.getElem?_append_left (List.getElem?_eq_some_iff.mp hm).1] at hl
  exact h.bound id i l hid hl

theorem Mapped.close (h : Mapped listeners running sockets) (i : Nat) :
    Mapped (setPhase listeners i .closed) running sockets := by
  refine ⟨h.agree, fun id j l hid hl => ?_⟩
  obtain ⟨m, hm, -, ⟨-, hphase⟩ | ⟨-, rfl⟩⟩ := of_getElem?_setPhase hl
  · rw [hphase]
    decide
  · exact h.bound id j m hid hm

theorem Mapped.forget (h : Mapped listeners running sockets) (id : RuleId) :
    Mapped listeners (delete running id) (delete sockets id) := by
  refine ⟨fun id' => ?_, fun id' i l hid hl => ?_⟩
  · rw [get_delete, get_delete, h.agree]
  · rw [get_delete] at hid
    split at hid
    · cases hid
    · exact h.bound id' i l hid hl

theorem Mapped.listening (h : Mapped listeners running sockets) (id : RuleId) (i : Nat) :
    Mapped (setPhase listeners i .listening) (set running id i) (set sockets id i) := by
  refine ⟨fun id' => ?_, fun id' j l hid hl => ?_⟩
  · rw [get_set, get_set, h.agree]
  · obtain ⟨m, hm, -, ⟨-, hphase⟩ | ⟨hne, rfl⟩⟩ := of_getElem?_setPhase hl
    · rw [hphase]
      decide
    · rw [get_set] at hid
      split at hid
      · exact absurd (Option.some.inj hid) hne
      · exact h.bound id' j m hid hm

/-- Of two equal maps it is enough to look at one. -/
theorem Mapped.unmapped (h : Mapped listeners running sockets) (hid : get running id ≠ some i) :
    get running id ≠ some i ∧ get sockets id ≠ some i :=
  ⟨hid, by rwa [h.agree]⟩

/-- A listener that is started later belongs to a rule that is in the list. -/
theorem Retired.starts (h : Retired rules listeners running sockets)
    (hstarts : Starts .udp rule listeners listeners') :
    Retired (rules ++ [rule]) listeners' running sockets := by
  have hold : ∀ (i : Nat) l, listeners[i]? = some l →
      (∀ rule' ∈ rules ++ [rule], rule'.id ≠ l.rule.id) →
      ∀ id, get running id ≠ some i ∧ get sockets id ≠ some i := fun i l hl hgone =>
    h.deleted i l hl fun rule' hrule => hgone rule' (List.mem_append_left _ hrule)
  obtain rfl | ⟨rfl, -⟩ := hstarts
  · exact ⟨h.closed, hold⟩
  have hnew : ∀ (i : Nat) l, (listeners ++ [⟨rule, .pending⟩])[i]? = some l →
      listeners[i]? = some l ∨ l = ⟨rule, .pending⟩ := by
    intro i l hl
    rw [List.getElem?_append] at hl
    split at hl
    · exact .inl hl
    · rw [List.getElem?_singleton] at hl
      split at hl
      · exact .inr (Option.some.inj hl).symm
      · cases hl
  constructor
  · intro i l hl hphase
    obtain hl | rfl := hnew i l hl
    · exact h.closed i l hl hphase
    · cases hphase
  · intro i l hl hgone
    obtain hl | rfl := hnew i l hl
    · exact hold i l hl hgone
    · exact absurd rfl (hgone rule (List.mem_append_right _ (List.mem_singleton_self _)))

/-- A socket that is in no map is closed, and stays out of them. -/
theorem Retired.close (h : Retired rules listeners running sockets)
    (hmapped : Mapped listeners running sockets) (hfree : ∀ id, get running id ≠ some i) :
    Retired rules (setPhase listeners i .closed) running sockets := by
  constructor
  · intro j l hl hphase id
    obtain ⟨m, hm, -, ⟨rfl, -⟩ | ⟨-, rfl⟩⟩ := of_getElem?_setPhase hl
    · exact hmapped.unmapped (hfree id)
    · exact h.closed j m hm hphase id
  · intro j l hl hgone id
    obtain ⟨m, hm, hrule, -⟩ := of_getElem?_setPhase hl
    rw [← hrule] at hgone
    exact h.deleted j m hm hgone id

/-- Forgetting a running forward brings no retired socket back. -/
theorem Retired.forget (h : Retired rules listeners running sockets) (id : RuleId) :
    Retired rules listeners (delete running id) (delete sockets id) := by
  have hless : ∀ (map : List (RuleId × HostSocket)) id' (i : Nat), get map id' ≠ some i →
      get (delete map id) id' ≠ some i := by
    intro map id' i hne
    rw [get_delete]
    split
    · intro h
      cases h
    · exact hne
  constructor
  · intro i l hl hphase id'
    obtain ⟨hrunning, hsockets⟩ := h.closed i l hl hphase id'
    exact ⟨hless _ _ _ hrunning, hless _ _ _ hsockets⟩
  · intro i l hl hgone id'
    obtain ⟨hrunning, hsockets⟩ := h.deleted i l hl hgone id'
    exact ⟨hless _ _ _ hrunning, hless _ _ _ hsockets⟩

/-- The socket of a rule is taken out of the maps and closed: what a deletion
does to it. -/
theorem Retired.stop (h : Retired rules listeners running sockets)
    (htracked : Tracked .udp rules nextRuleId listeners running)
    (hmapped : Mapped listeners running sockets) (hid : get running id = some i) :
    Retired rules (setPhase listeners i .closed) (delete running id) (delete sockets id) := by
  refine (h.forget id).close (hmapped.forget id) fun id' hid' => ?_
  rw [get_delete] at hid'
  split at hid'
  · cases hid'
  · rename_i hne
    obtain ⟨l, hl, rfl⟩ := htracked.owner id i hid
    obtain ⟨l', hl', rfl⟩ := htracked.owner id' i hid'
    obtain rfl := Option.some.inj (hl.symm.trans hl')
    exact hne rfl

/-- A rule without a socket in the maps is removed, and nothing else changes. -/
theorem Retired.erase (h : Retired rules listeners running sockets)
    (htracked : Tracked .udp rules nextRuleId listeners running)
    (hmapped : Mapped listeners running sockets) (hid : get running id = none) :
    Retired (rules.eraseP (·.id = id)) listeners running sockets := by
  refine ⟨h.closed, fun i l hl hgone id' => ?_⟩
  by_cases hrule : l.rule.id = id
  · refine hmapped.unmapped fun hid' => ?_
    obtain ⟨m, hm, hm'⟩ := htracked.owner id' i hid'
    obtain rfl := Option.some.inj (hl.symm.trans hm)
    rw [← hm', hrule, hid] at hid'
    cases hid'
  · refine h.deleted i l hl (fun rule hmem hsame => ?_) id'
    have hne : ¬decide (rule.id = id) = true := by
      rw [hsame, decide_eq_true_eq]
      exact hrule
    exact hgone rule ((List.mem_eraseP_of_neg (p := fun rule => rule.id = id) hne).mpr hmem) hsame

/-- A bind that completes keeps the property exactly if its rule is still there. -/
theorem Retired.listening_iff (h : Retired rules listeners running sockets)
    (hl : listeners[i]? = some l) :
    Retired rules (setPhase listeners i .listening) (set running l.rule.id i)
        (set sockets l.rule.id i) ↔ ∃ rule ∈ rules, rule.id = l.rule.id := by
  constructor
  · intro hall
    by_contra hgone
    have hnew : (setPhase listeners i .listening)[i]? = some { l with phase := .listening } := by
      rw [getElem?_setPhase, if_pos rfl, hl]
      rfl
    refine (hall.deleted i _ hnew (fun rule hrule hid => hgone ⟨rule, hrule, hid⟩) l.rule.id).1 ?_
    rw [get_set, if_pos rfl]
  · rintro ⟨rule, hrule, hid⟩
    have hother : ∀ (j : Nat) (map : List (RuleId × HostSocket)) id', i ≠ j →
        get map id' ≠ some j → get (set map l.rule.id i) id' ≠ some j := by
      intro j map id' hne hold
      rw [get_set]
      split
      · exact fun heq => hne (Option.some.inj heq)
      · exact hold
    constructor
    · intro j m hm hphase id'
      obtain ⟨m', hm', -, ⟨-, hopen⟩ | ⟨hne, rfl⟩⟩ := of_getElem?_setPhase hm
      · rw [hopen] at hphase
        cases hphase
      · obtain ⟨hrunning, hsockets⟩ := h.closed j m' hm' hphase id'
        exact ⟨hother j _ id' hne hrunning, hother j _ id' hne hsockets⟩
    · intro j m hm hgone id'
      obtain ⟨m', hm', hsame, ⟨rfl, -⟩ | ⟨hne, rfl⟩⟩ := of_getElem?_setPhase hm
      · obtain rfl := Option.some.inj (hl.symm.trans hm')
        rw [← hsame] at hgone
        exact absurd hid (hgone rule hrule)
      · obtain ⟨hrunning, hsockets⟩ := h.deleted j m' hm' hgone id'
        exact ⟨hother j _ id' hne hrunning, hother j _ id' hne hsockets⟩

end Sockets

namespace AdminServer

variable {c c' : AdminServer} {event : Event} {id : RuleId} {socket : HostSocket} {rule : ProxyRule}

/-- `handleUDP` sends to the clients of forwards by the sockets of the map only,
so a socket that is in no map sends nothing. -/
theorem handleUDP_client {cfg : RelaySettings} {r : Relay} {env : Environment} {session : SessionId}
    {parsed : ParsedIPv4} {payload : Bytes} {port : Port} {address : Address}
    (h : .client socket payload port address ∈ (r.handleUDP cfg env session parsed).2) :
    ∃ id, get r.udpProxySockets id = some socket := by
  cases hdatagram : parseUDPDatagram parsed with
  | none =>
      unfold Relay.handleUDP at h
      rw [hdatagram] at h
      cases h
  | some datagram =>
      cases hnat : r.natEntry session datagram.dstPort with
      | some entry =>
          rw [Relay.handleUDP_nat hdatagram hnat] at h
          exact ⟨entry.ruleId, (Relay.mem_toClient h).1⟩
      | none =>
          by_cases hport : datagram.dstPort = 67
          · rw [Relay.handleUDP_dhcp hdatagram hnat hport] at h
            exact absurd h (Relay.client_not_mem_handleDHCP r session _)
          · rw [Relay.handleUDP_flow hdatagram hnat hport] at h
            split at h
            · cases h
            · obtain ⟨effect, -, heq⟩ := List.mem_map.mp h
              cases heq

theorem socketsRetired_iff :
    c.SocketsRetired ↔ Retired c.proxyRules c.udpSockets c.runningUdpProxies c.udpProxySockets := by
  refine ⟨fun h => h.retired, fun h => ⟨h, ?_⟩⟩
  intro cfg r env session parsed socket payload port address hsame hmem hphase
  obtain ⟨id, hid⟩ := handleUDP_client hmem
  obtain ⟨l, hl, hclosed⟩ := Option.map_eq_some_iff.mp hphase
  rw [hsame] at hid
  exact (h.closed socket l hl hclosed id).2 hid

theorem stopUdpForward_of_none (h : get c.runningUdpProxies id = none) :
    c.stopUdpForward id = .ok c := by
  unfold stopUdpForward
  rw [h]

theorem stopUdpForward_of_some (h : get c.runningUdpProxies id = some socket) :
    c.stopUdpForward id =
      if phaseOf c.udpSockets socket = some .closed then .error "Not running"
      else .ok { c with
        udpSockets := setPhase c.udpSockets socket .closed
        runningUdpProxies := delete c.runningUdpProxies id
        udpProxySockets := delete c.udpProxySockets id } := by
  unfold stopUdpForward
  rw [h]

/-- The part of a deletion that is about the rule's socket. The servers of the
other protocol are whatever they are. -/
theorem deleteRule_cases (c : AdminServer) (id : RuleId) :
    c.deleteRule id = .ok c ∨
    (∃ message, message ≠ "Not running" ∧ c.deleteRule id = .error message) ∨
    ∃ rule tcpServers runningTcpProxies, rule ∈ c.proxyRules ∧ rule.id = id ∧
      ((∃ protocols, rule.protocols = some protocols ∧ .udp ∉ protocols) ∧ c.deleteRule id =
          .ok { c with
            tcpServers := tcpServers
            runningTcpProxies := runningTcpProxies
            proxyRules := c.proxyRules.eraseP (·.id = id) } ∨
        c.deleteRule id = ({ c with tcpServers, runningTcpProxies }.stopUdpForward id).map
          fun c : AdminServer => { c with proxyRules := c.proxyRules.eraseP (·.id = id) }) := by
  unfold deleteRule
  cases hfind : c.proxyRules.find? (·.id = id) with
  | none => exact .inl rfl
  | some rule =>
      have hrule : rule ∈ c.proxyRules := List.mem_of_find?_eq_some hfind
      have hid : rule.id = id := by simpa using List.find?_some hfind
      dsimp only
      rw [hid]
      by_cases htype : rule.type = .port
      · rw [if_pos htype]
        unfold stopPortForward
        cases hprotocols : rule.protocols with
        | none => exact .inr (.inl ⟨_, by decide, rfl⟩)
        | some protocols =>
            dsimp only
            rw [hid]
            have hservers : ∃ tcpServers runningTcpProxies,
                (if .tcp ∈ protocols then c.stopTcpForward id else c) =
                  { c with tcpServers, runningTcpProxies } := by
              split
              · exact ⟨_, _, stopTcpForward_eq c id⟩
              · exact ⟨_, _, rfl⟩
            obtain ⟨tcpServers, runningTcpProxies, hservers⟩ := hservers
            rw [hservers]
            refine .inr (.inr ⟨rule, tcpServers, runningTcpProxies, hrule, hid, ?_⟩)
            by_cases hudp : .udp ∈ protocols
            · rw [if_pos hudp]
              exact .inr rfl
            · rw [if_neg hudp]
              exact .inl ⟨⟨protocols, hprotocols, hudp⟩, rfl⟩
      · rw [if_neg htype, stopTcpForward_eq]
        exact .inr (.inr ⟨rule, _, _, hrule, hid, .inr rfl⟩)

/-- What is kept along a run: the maps fit the rules and sockets, and the
sockets that are closed are in no map. -/
structure Kept (c : AdminServer) : Prop where
  sound : Sound c
  mapped : Mapped c.udpSockets c.runningUdpProxies c.udpProxySockets
  retired : Retired c.proxyRules c.udpSockets c.runningUdpProxies c.udpProxySockets

/-- A socket in the maps can be closed, since it is not closed yet. -/
theorem Kept.open (h : Kept c) (hid : get c.runningUdpProxies id = some socket) :
    phaseOf c.udpSockets socket ≠ some .closed := by
  intro hphase
  obtain ⟨l, hl, hclosed⟩ := Option.map_eq_some_iff.mp hphase
  exact (h.retired.closed socket l hl hclosed id).1 hid

/-- A deletion closes no socket twice, and leaves what it should. -/
theorem Kept.deleteRule (h : Kept c) (id : RuleId) :
    ClosedOnce (c.deleteRule id) ∧ ∀ c', c.deleteRule id = .ok c' →
      Mapped c'.udpSockets c'.runningUdpProxies c'.udpProxySockets := by
  obtain hsame | ⟨message, hother, herror⟩ | ⟨rule, tcpServers, runningTcpProxies, hrule, rfl, hdel⟩ :=
    deleteRule_cases c id
  · rw [hsame]
    refine ⟨socketsRetired_iff.mpr h.retired, fun c' hc' => ?_⟩
    obtain rfl := Except.ok.inj hc'
    exact h.mapped
  · rw [herror]
    exact ⟨hother, fun c' hc' => by cases hc'⟩
  obtain ⟨⟨protocols, hprotocols, hudp⟩, hdel⟩ | hdel := hdel
  · rw [hdel]
    have hnone : get c.runningUdpProxies rule.id = none := by
      by_contra hsome
      obtain ⟨socket, hsocket⟩ := Option.ne_none_iff_exists'.mp hsome
      obtain ⟨l, hl, hl'⟩ := h.sound.udp.owner _ _ hsocket
      obtain ⟨-, -, started, hstarted, hmem⟩ := h.sound.udp.started _ l hl
      rw [h.sound.udp.sameRule _ l hl rule hrule hl'.symm, hstarted] at hprotocols
      exact hudp (Option.some.inj hprotocols ▸ hmem)
    refine ⟨socketsRetired_iff.mpr (h.retired.erase h.sound.udp h.mapped hnone), fun c' hc' => ?_⟩
    obtain rfl := Except.ok.inj hc'
    exact h.mapped
  · rw [hdel]
    cases hid : get c.runningUdpProxies rule.id with
    | none =>
        have hid' : get { c with tcpServers, runningTcpProxies }.runningUdpProxies rule.id = none :=
          hid
        rw [stopUdpForward_of_none hid']
        refine ⟨socketsRetired_iff.mpr (h.retired.erase h.sound.udp h.mapped hid), fun c' hc' => ?_⟩
        obtain rfl := Except.ok.inj hc'
        exact h.mapped
    | some socket =>
        have hid' : get { c with tcpServers, runningTcpProxies }.runningUdpProxies rule.id =
          some socket := hid
        rw [stopUdpForward_of_some hid', if_neg (h.open hid)]
        have hmapped := (h.mapped.forget rule.id).close socket
        have htracked := (h.sound.udp.stop rule.id).1
        unfold stopListener at htracked
        rw [hid] at htracked
        refine ⟨socketsRetired_iff.mpr ?_, fun c' hc' => ?_⟩
        · refine (h.retired.stop h.sound.udp h.mapped hid).erase htracked hmapped ?_
          rw [get_delete, if_pos rfl]
        · obtain rfl := Except.ok.inj hc'
          exact hmapped

/-- A new rule closes nothing, so nothing is closed twice. -/
theorem Kept.postRule (h : Kept c) (body : Option RuleBody) :
    ClosedOnce (c.postRule body) ∧ ∀ c', c.postRule body = .ok c' →
      Mapped c'.udpSockets c'.runningUdpProxies c'.udpProxySockets := by
  cases hpost : c.postRule body with
  | error message =>
      refine ⟨?_, fun c' hc' => by cases hc'⟩
      change message ≠ _
      cases body with
      | none =>
          cases hpost
          decide
      | some body =>
          unfold AdminServer.postRule at hpost
          dsimp only at hpost
          split at hpost
          · unfold startPortForward at hpost
            split at hpost
            · cases hpost
              decide
            · cases hpost
          · cases hpost
  | ok c₁ =>
      have hkept : c₁.SocketsRetired ∧
          Mapped c₁.udpSockets c₁.runningUdpProxies c₁.udpProxySockets := by
        cases body with
        | none => cases hpost
        | some body =>
            unfold AdminServer.postRule at hpost
            dsimp only at hpost
            split at hpost
            · rename_i htype
              obtain ⟨tcpServers, udpSockets, rfl, -, hudp⟩ := startPortForward_ok htype hpost
              exact ⟨socketsRetired_iff.mpr (h.retired.starts hudp),
                h.mapped.starts h.sound.udp hudp⟩
            · cases hpost
              exact ⟨socketsRetired_iff.mpr (h.retired.starts (.inl rfl)), h.mapped⟩
      refine ⟨hkept.1, fun c' hc' => ?_⟩
      obtain rfl := Except.ok.inj hc'
      exact hkept.2

theorem udpListening_eq {l : Listener} (hl : c.udpSockets[socket]? = some l) :
    c.udpListening socket = { c with
      udpSockets := setPhase c.udpSockets socket .listening
      runningUdpProxies := set c.runningUdpProxies l.rule.id socket
      udpProxySockets := set c.udpProxySockets l.rule.id socket } := by
  unfold AdminServer.udpListening
  rw [hl]

/-- Before its bind has completed a socket is in no map, so stopping its rule
does not find it. -/
theorem Kept.unmapped (h : Kept c) {l : Listener} (hl : c.udpSockets[socket]? = some l)
    (hpending : l.phase = .pending) : ∀ id, get c.runningUdpProxies id ≠ some socket :=
  fun id hid => h.mapped.bound id socket l hid hl hpending

/-- The error of a socket that is not bound yet closes it, and that is all: the
map has nothing for its rule. -/
theorem Kept.udpError_pending (h : Kept c) {l : Listener} (hl : c.udpSockets[socket]? = some l)
    (hpending : l.phase = .pending) :
    c.udpError socket = .ok { c with udpSockets := setPhase c.udpSockets socket .closed } := by
  have hnone : get c.runningUdpProxies l.rule.id = none := by
    by_contra hsome
    obtain ⟨i, hi⟩ := Option.ne_none_iff_exists'.mp hsome
    obtain ⟨m, hm, hid⟩ := h.sound.udp.owner _ i hi
    obtain rfl := h.sound.udp.single i socket m l hm hl hid
    exact h.unmapped hl hpending _ hi
  unfold AdminServer.udpError
  rw [hl]
  exact stopUdpForward_of_none hnone

/-- The error of a bound socket closes it twice, and the second close ends the
process. -/
theorem Kept.udpError_listening (h : Kept c) {l : Listener} (hl : c.udpSockets[socket]? = some l)
    (hopen : l.phase = .listening) : c.udpError socket = .error "Not running" := by
  have hid := h.sound.udp.recorded socket l hl hopen
  have hclosed : phaseOf (setPhase c.udpSockets socket .closed) socket = some .closed := by
    rw [phaseOf, getElem?_setPhase, if_pos rfl, hl]
    rfl
  unfold AdminServer.udpError
  rw [hl]
  dsimp only
  have hid' : get { c with udpSockets := setPhase c.udpSockets socket .closed }.runningUdpProxies
    l.rule.id = some socket := hid
  rw [stopUdpForward_of_some hid', if_pos hclosed]

/-- A step closes nothing twice and leaves the maps right exactly if it is no
error of a bound socket and no bind for a rule that was deleted. -/
theorem Kept.handle_iff (h : Kept c) (henabled : c.enabled event) :
    ClosedOnce (c.handle event) ↔ ¬c.Disturbs event := by
  cases event with
  | post body => exact iff_of_true (h.postRule body).1 (fun hno => hno)
  | remove id => exact iff_of_true (h.deleteRule id).1 (fun hno => hno)
  | tcpListening server =>
      refine iff_of_true (socketsRetired_iff.mpr ?_) (fun hno => hno)
      unfold AdminServer.tcpListening
      split <;> exact h.retired
  | tcpError server =>
      refine iff_of_true (socketsRetired_iff.mpr ?_) (fun hno => hno)
      unfold AdminServer.tcpError
      split <;> exact h.retired
  | udpListening socket =>
      obtain ⟨l, hl, -⟩ := Option.map_eq_some_iff.mp henabled
      change (c.udpListening socket).SocketsRetired ↔ _
      rw [socketsRetired_iff, udpListening_eq hl]
      refine (h.retired.listening_iff hl).trans ⟨?_, ?_⟩
      · rintro ⟨rule, hrule, hid⟩ ⟨l', hl', hgone⟩
        obtain rfl := Option.some.inj (hl.symm.trans hl')
        exact hgone rule hrule hid
      · intro hno
        by_contra hgone
        exact hno ⟨l, hl, fun rule hrule hid => hgone ⟨rule, hrule, hid⟩⟩
  | udpError socket =>
      change ClosedOnce (c.udpError socket) ↔ phaseOf c.udpSockets socket ≠ some .listening
      obtain hphase | hphase := henabled
      · obtain ⟨l, hl, hpending⟩ := Option.map_eq_some_iff.mp hphase
        rw [h.udpError_pending hl hpending, hphase]
        refine iff_of_true (socketsRetired_iff.mpr ?_) (by decide)
        exact h.retired.close h.mapped (h.unmapped hl hpending)
      · obtain ⟨l, hl, hopen⟩ := Option.map_eq_some_iff.mp hphase
        rw [h.udpError_listening hl hopen]
        exact iff_of_false (fun hno => hno rfl) (fun hno => hno hphase)

/-- The step lemma: an event keeps the maps in order if it leaves no retired
socket behind. -/
theorem Kept.step (h : Kept c) (henabled : c.enabled event) (hok : c.handle event = .ok c')
    (hretired : c'.SocketsRetired) : Kept c' := by
  refine ⟨(h.sound.step ⟨henabled, hok⟩).1, ?_, hretired.retired⟩
  cases event with
  | post body => exact (h.postRule body).2 c' hok
  | remove id => exact (h.deleteRule id).2 c' hok
  | tcpListening server =>
      cases hok
      unfold AdminServer.tcpListening
      split <;> exact h.mapped
  | tcpError server =>
      cases hok
      unfold AdminServer.tcpError
      split <;> exact h.mapped
  | udpListening socket =>
      cases hok
      obtain ⟨l, hl, -⟩ := Option.map_eq_some_iff.mp henabled
      rw [udpListening_eq hl]
      exact h.mapped.listening l.rule.id socket
  | udpError socket =>
      obtain hphase | hphase := henabled
      · obtain ⟨l, hl, hpending⟩ := Option.map_eq_some_iff.mp hphase
        cases (h.udpError_pending hl hpending).symm.trans hok
        exact h.mapped.close socket
      · obtain ⟨l, hl, hopen⟩ := Option.map_eq_some_iff.mp hphase
        cases (h.udpError_listening hl hopen).symm.trans hok

theorem kept_init : Kept {} := by
  refine ⟨sound_init, ⟨fun id => rfl, fun id i l hid => ?_⟩, ⟨fun i l hl => ?_, fun i l hl => ?_⟩⟩
  · cases hid
  · cases hl
  · cases hl

/-- A run closes each socket at most once, and its maps are right after every
step, exactly if no bound socket fails in it and no bind completes for a rule
that was deleted. -/
theorem run_closedOnce_iff {events : List Event} {o : Outcome} :
    Run (fun o event o' => Fires o event o' ∧ ClosedOnce o') (.ok {}) events o ↔
      Run (Restrict Fires Undisturbed) (.ok {}) events o := by
  refine Run.restrict_iff (I := fun o => ∀ c, o = .ok c → Kept c) ?_ ?_ ?_
  · intro c hc
    obtain rfl := Except.ok.inj hc
    exact kept_init
  · rintro o event o' hkept ⟨c, rfl, henabled, rfl⟩ hclosed c' hc'
    have hretired : c'.SocketsRetired := by rwa [hc'] at hclosed
    exact (hkept c rfl).step henabled hc' hretired
  · rintro o event o' hkept ⟨c, rfl, henabled, rfl⟩
    rw [(hkept c rfl).handle_iff henabled]
    constructor
    · intro hno c' hc'
      obtain rfl := Except.ok.inj hc'
      exact hno
    · exact fun hall => hall c rfl

/-- A rule with a UDP port is bound, and then its socket fails. -/
theorem second_close :
    ∃ (events : List Event) (o : Outcome), Run Fires (.ok {}) events o ∧
      o = .error "Not running" ∧ ¬ClosedOnce o := by
  let body : RuleBody := ⟨.port, some [.udp]⟩
  let rule : ProxyRule := ⟨body, 1⟩
  let pending : AdminServer :=
    { nextRuleId := 2, proxyRules := [rule], udpSockets := [⟨rule, .pending⟩] }
  refine ⟨[.post (some body), .udpListening 0, .udpError 0], .error "Not running",
    .cons ⟨_, rfl, trivial, rfl⟩ (.cons ⟨pending, rfl, rfl, rfl⟩ (.single ⟨_, rfl, .inr rfl, rfl⟩)),
    rfl, fun hclosed => hclosed rfl⟩

end AdminServer

end RootlessRelay
