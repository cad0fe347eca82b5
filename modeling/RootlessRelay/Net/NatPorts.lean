import Mathlib.Data.Finset.Card
import Mathlib.Order.Interval.Finset.Nat
import RootlessRelay.Net.Directory

/-!
# Ephemeral ports of UDP port forwards

`forwardUdpPacket` draws ports until it finds one that its NAT table does not
hold. A table never holds a port twice, nor one outside the range, and entries
leave it by their timer alone: the search can end as long as the table is not
full.

The random numbers are an argument of the search, as a list of draws that it may
use up. That a search can end means that some draws end it; with a full table
none does, and the call of the source never returns. The invariant on the keys
of a table is kept by every event, since the only writer writes to a port that
it has found free.
-/

namespace RootlessRelay

open InsertionMap Transition

namespace Relay

section Definitions

variable (cfg : RelaySettings) (c : Relay)

/-- The NAT table of a session. -/
def natTable (id : SessionId) : List (Port × NatEntry) := (c.session id).udpProxyNatTable

/-- The search of `forwardUdpPacket` over the values of
`Math.floor(Math.random() * 10000)`: the port it ends on, unless it needs more
draws than these. -/
def searchPort (table : List (Port × NatEntry)) : List (Fin 10000) → Option Port
  | [] => none
  | draw :: rest =>
      let ephemeralPort := 40000 + draw.val
      if hasKey table ephemeralPort then searchPort table rest else some ephemeralPort

/-- The keys of a NAT table: ephemeral ports, each of them once. -/
structure NatKeys (table : List (Port × NatEntry)) : Prop where
  nodup : (keys table).Nodup
  range : ∀ port ∈ keys table, 40000 ≤ port ∧ port < 50000

end Definitions

/-- The search for a port can end, and a port it ends on is free, and the
datagram's entry is all that changes in the NAT tables. -/
structure SelectsPort (cfg : RelaySettings) (c : Relay) (id : SessionId) : Prop where
  finishes : ∃ draws, (searchPort (c.natTable id) draws).isSome
  free : ∀ draws port, searchPort (c.natTable id) draws = some port →
    get (c.natTable id) port = none ∧ 40000 ≤ port ∧ port < 50000
  mapped : ∀ draws port payload vmPort entry, searchPort (c.natTable id) draws = some port →
    get ((c.forwardUdpPacket cfg id payload vmPort entry port).1.natTable id) port = some entry
  kept : ∀ draws port payload vmPort entry, searchPort (c.natTable id) draws = some port →
    ∀ t key known, get (c.natTable t) key = some known →
      get ((c.forwardUdpPacket cfg id payload vmPort entry port).1.natTable t) key = some known

variable {cfg : RelaySettings} {c c' : Relay} {id : SessionId} {event : Event}
  {table : List (Port × NatEntry)}

theorem searchPort_free {draws : List (Fin 10000)} {port : Port}
    (h : searchPort table draws = some port) :
    hasKey table port = false ∧ 40000 ≤ port ∧ port < 50000 := by
  induction draws with
  | nil => cases h
  | cons draw rest ih =>
      simp only [searchPort] at h
      split at h
      · exact ih h
      · rename_i hfree
        cases h
        exact ⟨Bool.eq_false_iff.mpr hfree, Nat.le_add_right _ _,
          Nat.add_lt_add_left draw.isLt 40000⟩

theorem exists_searchPort {port : Port} (hfree : hasKey table port = false)
    (hlow : 40000 ≤ port) (hhigh : port < 50000) :
    ∃ draws, searchPort table draws = some port := by
  refine ⟨[⟨port - 40000, Nat.sub_lt_left_of_lt_add hlow hhigh⟩], ?_⟩
  have hport : 40000 + (port - 40000) = port := Nat.add_sub_cancel' hlow
  simp only [searchPort]
  rw [hport, if_neg (Bool.eq_false_iff.mp hfree)]

theorem exists_searchPort_iff :
    (∃ draws, (searchPort table draws).isSome) ↔
      ∃ port, 40000 ≤ port ∧ port < 50000 ∧ port ∉ keys table := by
  constructor
  · rintro ⟨draws, hends⟩
    obtain ⟨port, hport⟩ := Option.isSome_iff_exists.mp hends
    obtain ⟨hfree, hlow, hhigh⟩ := searchPort_free hport
    exact ⟨port, hlow, hhigh, fun hmem => Bool.false_ne_true (hfree.symm.trans (hasKey_iff.mpr hmem))⟩
  · rintro ⟨port, hlow, hhigh, hfree⟩
    obtain ⟨draws, hends⟩ :=
      exists_searchPort (Bool.eq_false_iff.mpr (mt hasKey_iff.mp hfree)) hlow hhigh
    exact ⟨draws, Option.isSome_iff_exists.mpr ⟨port, hends⟩⟩

/-- A search can end exactly if the table holds fewer entries than the range has
ports. Distinct keys of the range fill it up only at its length. -/
theorem NatKeys.search_ends_iff (h : NatKeys table) :
    (∃ draws, (searchPort table draws).isSome) ↔ table.length < 10000 := by
  have hcard : (keys table).toFinset.card = table.length := by
    rw [List.toFinset_card_of_nodup h.nodup]
    exact List.length_map _
  have hsub : (keys table).toFinset ⊆ Finset.Ico 40000 50000 := fun port hport =>
    Finset.mem_Ico.mpr (h.range port (List.mem_toFinset.mp hport))
  rw [exists_searchPort_iff]
  constructor
  · rintro ⟨port, hlow, hhigh, hfree⟩
    have hproper : (keys table).toFinset ⊂ Finset.Ico 40000 50000 :=
      Finset.ssubset_iff_of_subset hsub |>.mpr
        ⟨port, Finset.mem_Ico.mpr ⟨hlow, hhigh⟩, mt List.mem_toFinset.mp hfree⟩
    have hlt := Finset.card_lt_card hproper
    rw [hcard, Nat.card_Ico] at hlt
    exact hlt
  · intro hlt
    have hfewer : (keys table).toFinset.card < (Finset.Ico 40000 50000).card := by
      rw [hcard, Nat.card_Ico]
      exact hlt
    obtain ⟨port, hrange, hfree⟩ := Finset.exists_mem_notMem_of_card_lt_card hfewer
    obtain ⟨hlow, hhigh⟩ := Finset.mem_Ico.mp hrange
    exact ⟨port, hlow, hhigh, mt List.mem_toFinset.mpr hfree⟩

/-- A datagram of a forward is possible on exactly the ports the search can end
on. With a full table the event cannot happen. -/
theorem enabled_proxyDatagram_iff {vm : Address} {vmPort : Port} {payload : Bytes}
    {entry : NatEntry} {port : Port} (h : c.registry.routeOf vm = some id) :
    c.enabled (.proxyDatagram vm vmPort payload entry port) ↔
      ∃ draws, searchPort (c.natTable id) draws = some port := by
  simp only [enabled, h, Bool.not_eq_true', decide_eq_true_eq]
  constructor
  · rintro ⟨hlow, hhigh, hfree⟩
    exact exists_searchPort hfree hlow hhigh
  · rintro ⟨draws, hends⟩
    obtain ⟨hfree, hlow, hhigh⟩ := searchPort_free hends
    exact ⟨hlow, hhigh, hfree⟩

theorem natTable_setSession (c : Relay) (id t : SessionId) (s : VMSession) :
    (c.setSession id s).natTable t = if t = id then s.udpProxyNatTable else c.natTable t := by
  unfold natTable
  rw [session_setSession]
  split <;> rfl

/-- Replacing a session by one with the same table changes no table. -/
theorem natTable_setSession_same (c : Relay) (id : SessionId) (s : VMSession)
    (h : s.udpProxyNatTable = (c.session id).udpProxyNatTable) (t : SessionId) :
    (c.setSession id s).natTable t = c.natTable t := by
  rw [natTable_setSession]
  split
  · rename_i ht
    rw [ht, h]
    rfl
  · rfl

theorem natTable_setFlows (c : Relay) (id : SessionId) (flows : UDPFlowManager) (t : SessionId) :
    (c.setSession id { c.session id with udpFlows := flows }).natTable t = c.natTable t :=
  natTable_setSession_same c id { c.session id with udpFlows := flows } rfl t

theorem natTable_assign (c : Relay) (id : SessionId) (ip : Address) (t : SessionId) :
    (c.assign id ip).natTable t = c.natTable t :=
  natTable_setSession_same c id { c.session id with vmIP := some ip } rfl t

/-- ARP leaves the NAT table of every session alone. -/
theorem natTable_handleARP (c : Relay) (id : SessionId) (arpPacket : Bytes) (t : SessionId) :
    (c.handleARP cfg id arpPacket).1.natTable t = c.natTable t := by
  unfold handleARP assignByMAC
  split
  · rfl
  · split
    · rfl
    · rename_i hassign
      split at hassign
      · split at hassign
        · cases hassign
        · cases hassign
          exact natTable_assign _ id _ t
      · cases hassign
        rfl

/-- So does DHCP. -/
theorem natTable_handleDHCP (c : Relay) (id : SessionId) (udp : Bytes) (t : SessionId) :
    (c.handleDHCP cfg id udp).1.natTable t = c.natTable t := by
  unfold handleDHCP assignByClient
  split
  · rfl
  · split
    · rfl
    · rename_i hassign
      split at hassign
      · cases hassign
      · dsimp only at hassign
        split at hassign
        · cases hassign
          exact natTable_assign _ id _ t
        · cases hassign
          rfl

theorem natTable_sendFlow (c : Relay) (env : Environment) (id : SessionId) (payload : Bytes)
    (flowInfo : FlowInfo) (t : SessionId) :
    (c.sendFlow cfg env id payload flowInfo).1.natTable t = c.natTable t :=
  natTable_setFlows c id _ t

/-- A packet of the VM is looked up in the table, and changes nothing in it. -/
theorem natTable_handleUDP (c : Relay) (env : Environment) (id : SessionId)
    (parsed : ParsedIPv4) (t : SessionId) :
    (c.handleUDP cfg env id parsed).1.natTable t = c.natTable t := by
  unfold handleUDP
  split
  · rfl
  · split
    · split <;> rfl
    · split
      · exact natTable_handleDHCP c id _ t
      · dsimp only
        split
        · split
          · rfl
          · exact natTable_sendFlow c env id _ _ t
        · exact natTable_sendFlow c env id _ _ t

theorem natTable_handleIPv4 (c : Relay) (env : Environment) (id : SessionId) (ipPacket : Bytes)
    (t : SessionId) : (c.handleIPv4 cfg env id ipPacket).1.natTable t = c.natTable t := by
  cases hparsed : parseIPv4Packet ipPacket with
  | none =>
      unfold handleIPv4
      rw [hparsed]
  | some parsed =>
      by_cases hudp : c.reachesUDP cfg parsed
      · rw [handleIPv4_udp hparsed hudp]
        exact natTable_handleUDP c env id parsed t
      · rw [(handleIPv4_other hparsed hudp).1]

theorem natTable_handleEthernetFrame (c : Relay) (env : Environment) (id : SessionId)
    (frame : Bytes) (t : SessionId) :
    (c.handleEthernetFrame cfg env id frame).1.natTable t = c.natTable t := by
  have hlearn : ∀ mac, (c.learnMAC id mac).natTable t = c.natTable t := fun mac =>
    natTable_setSession_same c id { c.session id with vmMAC := some mac } rfl t
  unfold handleEthernetFrame
  split
  · rfl
  · dsimp only
    split_ifs
    · rw [natTable_handleARP, hlearn]
    · rw [natTable_handleIPv4, hlearn]
    · exact hlearn _

theorem NatKeys.set (h : NatKeys table) {port : Port} (hfree : hasKey table port = false)
    (hlow : 40000 ≤ port) (hhigh : port < 50000) (entry : NatEntry) :
    NatKeys (set table port entry) := by
  have hnew : port ∉ keys table := fun hmem =>
    Bool.false_ne_true (hfree.symm.trans (hasKey_iff.mpr hmem))
  rw [set_of_fresh hnew]
  refine ⟨keys_append_nodup h.nodup hnew, fun port' hport => ?_⟩
  simp only [keys, List.map_append, List.mem_append, List.map_cons, List.map_nil,
    List.mem_singleton] at hport
  rcases hport with hold | rfl
  · exact h.range port' hold
  · exact ⟨hlow, hhigh⟩

theorem NatKeys.delete (h : NatKeys table) (port : Port) : NatKeys (delete table port) :=
  ⟨keys_delete_nodup h.nodup port, fun port' hport =>
    h.range port' ((List.filter_sublist.map Prod.fst).subset hport)⟩

/-- The step lemma: the ports in the table stay within the range that is
searched, and each is there once. -/
theorem natKeys_step (h : ∀ t, NatKeys (c.natTable t)) (hstep : Step cfg c event c')
    (t : SessionId) : NatKeys (c'.natTable t) := by
  obtain ⟨henabled, rfl⟩ := hstep
  cases event with
  | «open» =>
      change NatKeys ((c.setSession c.nextSession {}).natTable t)
      rw [natTable_setSession]
      split
      · exact ⟨List.nodup_nil, by rintro port ⟨⟩⟩
      · exact h t
  | frame env id data =>
      change NatKeys ((c.handleEthernetFrame cfg env id data).1.natTable t)
      rw [natTable_handleEthernetFrame]
      exact h t
  | close id =>
      have hsame : (c.close id).1.natTable t = c.natTable t := natTable_setFlows c id _ t
      change NatKeys ((c.close id).1.natTable t)
      rw [hsame]
      exact h t
  | proxyDatagram vm vmPort payload entry port =>
      cases hroute : c.registry.routeOf vm with
      | none =>
          simp only [handle, hroute]
          exact h t
      | some id =>
          obtain ⟨draws, hends⟩ := (enabled_proxyDatagram_iff hroute).mp henabled
          obtain ⟨hfree, hlow, hhigh⟩ := searchPort_free hends
          simp only [handle, hroute, forwardUdpPacket, natTable_setSession]
          split
          · exact (h id).set hfree hlow hhigh entry
          · exact h t
  | natTimer now id port =>
      change NatKeys ((c.natTimer now id port).natTable t)
      unfold natTimer
      dsimp only
      split
      · exact h t
      · split
        · rw [natTable_setSession]
          split
          · exact (h id).delete port
          · exact h t
        · exact h t
  | flowEvent id event =>
      have hsame : ((c.handle cfg (.flowEvent id event)).1).natTable t = c.natTable t :=
        natTable_setFlows c id _ t
      rw [hsame]
      exact h t
  | udpListening ruleId socket => exact h t
  | udpStopped ruleId => exact h t

theorem Reachable.natKeys (h : Reachable cfg c) (id : SessionId) : NatKeys (c.natTable id) := by
  have hinit : ∀ t, NatKeys (({} : Relay).natTable t) := fun _ =>
    ⟨List.nodup_nil, by rintro port ⟨⟩⟩
  have hall : ∀ t, NatKeys (c.natTable t) :=
    h.invariant (P := fun c => ∀ t, NatKeys (c.natTable t))
      (fun _ _ _ hkeys hstep => natKeys_step hkeys hstep)
      hinit
  exact hall id

/-- In every reachable state a datagram finds its port, and disturbs no other
entry, exactly if the session's table holds fewer than 10000 entries. -/
theorem selectsPort_iff (h : Reachable cfg c) (id : SessionId) :
    SelectsPort cfg c id ↔ (c.natTable id).length < 10000 := by
  rw [← (h.natKeys id).search_ends_iff]
  refine ⟨SelectsPort.finishes, fun hfinishes => ⟨hfinishes, ?_, ?_, ?_⟩⟩
  · intro draws port hends
    obtain ⟨hfree, hrange⟩ := searchPort_free hends
    refine ⟨get_eq_none_iff.mpr fun hmem => ?_, hrange⟩
    exact Bool.false_ne_true (hfree.symm.trans (hasKey_iff.mpr hmem))
  · intro draws port payload vmPort entry _
    rw [forwardUdpPacket, natTable_setSession, if_pos rfl, get_set, if_pos rfl]
  · intro draws port payload vmPort entry hends t key known hknown
    rw [forwardUdpPacket, natTable_setSession]
    split
    · rename_i ht
      rw [ht] at hknown
      have hne : port ≠ key := by
        rintro rfl
        have hpresent : hasKey (c.natTable id) port = true := by
          rw [hasKey_eq_isSome, hknown]
          rfl
        exact Bool.false_ne_true ((searchPort_free hends).1.symm.trans hpresent)
      rw [get_set, if_neg hne]
      exact hknown
    · exact hknown

/-- The address of the VM in the examples, the first of the pool. -/
def exampleVM : Address := poolAddress 15

/-- A run that gives a VM its address: its session opens and sends an ARP
request. -/
def exampleStart : List Event := [.open, .frame {} 0 (exampleARP [0x52, 0x54, 0, 0, 0, 1])]

/-- A client of a forward, seen at time 0. -/
def exampleEntry : NatEntry := ⟨⟨192, 0, 2, 1⟩, 5000, 0, 0⟩

/-- A first datagram for the VM finds a port, since its table is empty. -/
theorem selectsPort_iff_first :
    ∃ c : Relay, c.registry.routeOf exampleVM = some 0 ∧ SelectsPort {} c 0 := by
  refine ⟨({} : Relay).after {} exampleStart, by decide +kernel,
    (selectsPort_iff ⟨exampleStart, run_after (by decide +kernel)⟩ 0).mpr (by decide +kernel)⟩

/-- `n` datagrams for one VM, while no timer runs, take `n` ports. By induction
on `n`, each one the next port of the range. -/
theorem exists_filled {n : Nat} (hn : n ≤ 10000) :
    ∃ c : Relay, Reachable {} c ∧ c.registry.routeOf exampleVM = some 0 ∧
      keys (c.natTable 0) = List.range' 40000 n := by
  induction n with
  | zero => exact ⟨({} : Relay).after {} exampleStart, ⟨exampleStart, run_after (by decide +kernel)⟩,
      by decide +kernel, by decide +kernel⟩
  | succ n ih =>
      obtain ⟨c, hreach, hroute, hkeys⟩ := ih (Nat.le_of_succ_le hn)
      have hnew : 40000 + n ∉ keys (c.natTable 0) := by
        rw [hkeys, List.mem_range'_1]
        omega
      have hfree : hasKey (c.natTable 0) (40000 + n) = false :=
        Bool.eq_false_iff.mpr (mt hasKey_iff.mp hnew)
      have hhigh : 40000 + n < 50000 := by omega
      have henabled : c.enabled (.proxyDatagram exampleVM 53 [] exampleEntry (40000 + n)) :=
        (enabled_proxyDatagram_iff hroute).mpr
          (exists_searchPort hfree (Nat.le_add_right _ _) hhigh)
      refine ⟨_, hreach.tail ⟨henabled, rfl⟩, ?_, ?_⟩
      · simp only [handle, hroute]
        exact hroute
      · simp only [handle, hroute, forwardUdpPacket, natTable_setSession, if_pos]
        change keys (InsertionMap.set (c.natTable 0) _ _) = _
        rw [set_of_fresh hnew, List.range'_1_concat, ← hkeys]
        simp [keys]

/-- After 10000 datagrams the next one searches forever, whatever is drawn. -/
theorem exists_endless_search :
    ∃ c : Relay, Reachable {} c ∧ c.registry.routeOf exampleVM = some 0 ∧
      (∀ draws, searchPort (c.natTable 0) draws = none) ∧ ¬SelectsPort {} c 0 := by
  obtain ⟨c, hreach, hroute, hkeys⟩ := exists_filled (n := 10000) (Nat.le_refl _)
  have hlength : (c.natTable 0).length = 10000 := by
    have hmap : (keys (c.natTable 0)).length = (c.natTable 0).length := List.length_map _
    rw [← hmap, hkeys, List.length_range']
  have hends : ¬∃ draws, (searchPort (c.natTable 0) draws).isSome := by
    rw [(hreach.natKeys 0).search_ends_iff, hlength]
    decide
  refine ⟨c, hreach, hroute, fun draws => ?_, fun hselects => hends hselects.finishes⟩
  rw [← Option.not_isSome_iff_eq_none]
  exact fun hsome => hends ⟨draws, hsome⟩

end Relay

end RootlessRelay
