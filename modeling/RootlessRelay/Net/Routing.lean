import RootlessRelay.Net.Ownership

/-!
# Where routes and DHCP answers lead

A route should lead to an open session, and an address given out by DHCP should
be routed to the session it was given to. A route is stranded when its session
closes under another hardware address than the one its address is leased to; an
answer misleads when the client's lease is not the address the session already
has.

Both conditions are about the tables before the event, and each is exact for one
step. Along a run, routes lead to open sessions in every state exactly if no
close strands one. For DHCP there is nothing to carry from one event to the next
but well-formed tables, and the theorem speaks about every event of a run by
itself.
-/

namespace RootlessRelay

open InsertionMap Transition

namespace Directory

variable {cfg : RelaySettings} {d : Directory} {s : SessionId} {action : AddressAction}

/-- Every route leads to an open session that has the address. -/
def RoutesOpen (d : Directory) : Prop :=
  ∀ a s, d.registry.routeOf a = some s → s ∈ d.activeSessions ∧ d.vmIP s = some a

/-- A close that does not give back the address routed to its session. Then the
session is gone and its route is not. -/
def Strands (d : Directory) : AddressAction → Prop
  | .close id => ∃ a, d.registry.routeOf a = some id ∧ d.released id ≠ some a
  | _ => False

/-- A close removes the route of the address it gives back, and no other, be it
to the same session. -/
theorem routeOf_close (d : Directory) (id : SessionId) (a : Address) :
    (d.close id).registry.routeOf a =
      if d.released id = some a then none else d.registry.routeOf a := by
  unfold released
  cases hmac : d.vmMAC id with
  | none =>
      rw [close_registry_none hmac]
      rfl
  | some mac =>
      rw [close_registry_some hmac]
      dsimp only
      by_cases ha : d.registry.leaseOf mac = some a
      · rw [if_pos ha, Registry.routeOf_releaseIP ha, if_pos rfl]
      · rw [if_neg ha]
        cases hlease : d.registry.leaseOf mac with
        | none => rw [Registry.releaseIP_of_none hlease]
        | some ip =>
            have hne : ip ≠ a := fun h => ha (h ▸ hlease)
            rw [Registry.routeOf_releaseIP hlease, if_neg hne]

/-- A frame adds at most a route to its own session; routes to others it leaves
alone or takes over. -/
theorem routeOf_frame {id : SessionId} {srcMAC requested : Option MAC} {a : Address}
    (h : (d.apply cfg (.frame id srcMAC requested)).registry.routeOf a = some s) :
    s = id ∨ d.registry.routeOf a = some s := by
  rcases apply_frame_cases cfg d id srcMAC requested with
    heq | ⟨_, _, _, _, -, -, halloc, heq⟩ | ⟨_, ip, registry, -, -, halloc, heq⟩ <;> rw [heq] at h
  · rw [learnFrom_registry] at h
    exact .inr h
  · exact .inr ((Registry.allocateIP_routeOf halloc a).symm.trans h)
  · change (registry.register ip id).routeOf a = some s at h
    rw [Registry.routeOf_register, Registry.allocateIP_routeOf halloc] at h
    split at h
    · exact .inl (Option.some.inj h).symm
    · exact .inr h

/-- An action that strands no route keeps all routes to open sessions. -/
theorem RoutesOpen.apply (h : RoutesOpen d) (hwf : WellFormed cfg d) (henabled : d.enabled action)
    (hno : ¬d.Strands action) : RoutesOpen (d.apply cfg action) := by
  have hafter := hwf.apply henabled
  intro a s hs
  refine ⟨?_, hafter.routes a s hs⟩
  cases action with
  | idle => exact (h a s hs).1
  | connect => exact List.mem_append_left _ (h a s hs).1
  | close id =>
      change (d.close id).registry.routeOf a = some s at hs
      rw [routeOf_close] at hs
      split at hs
      · cases hs
      · rename_i hkept
        refine List.mem_filter.mpr ⟨(h a s hs).1, ?_⟩
        have hne : s ≠ id := by
          rintro rfl
          exact hno ⟨a, hs, hkept⟩
        simpa using hne
  | frame id srcMAC requested =>
      refine mem_activeSessions_apply cfg ?_ (by simp)
      rcases routeOf_frame hs with rfl | hold
      · exact henabled
      · exact (h a s hold).1

theorem Strands.not_routesOpen (h : d.Strands action) : ¬RoutesOpen (d.apply cfg action) := by
  cases action with
  | close id =>
      obtain ⟨a, hroute, hkept⟩ := h
      intro hopen
      have hs : (d.close id).registry.routeOf a = some id := by
        rw [routeOf_close, if_neg hkept]
        exact hroute
      have hmem := (hopen a id hs).1
      exact absurd (List.mem_filter.mp hmem).2 (by simp)
  | _ => exact h.elim

end Directory

namespace Relay

variable {cfg : RelaySettings} {c c' : Relay} {event : Event} {events : List Event}

/-- Every route of the relay leads to an open session that has the address. -/
def RoutesOpen (c : Relay) : Prop := c.directory.RoutesOpen

/-- The event closes a session whose route will stay. -/
def Strands (cfg : RelaySettings) (c : Relay) (event : Event) : Prop :=
  c.directory.Strands (c.addressAction cfg event)

theorem routesOpen_iff (hwf : c.directory.WellFormed cfg) (h : c.RoutesOpen)
    (hstep : Step cfg c event c') : c'.RoutesOpen ↔ ¬c.Strands cfg event := by
  obtain ⟨henabled, rfl⟩ := hstep
  unfold RoutesOpen Strands
  rw [directory_handle]
  exact ⟨fun hopen hstrands => hstrands.not_routesOpen hopen,
    Directory.RoutesOpen.apply h hwf (enabled_directory cfg henabled)⟩

/-- Along a run every route leads to an open session exactly if no close strands
one: each session closes while its routed address is the lease of its last
hardware address. -/
theorem run_routesOpen_iff :
    Run (fun c event c' => Step cfg c event c' ∧ c'.RoutesOpen) {} events c ↔
      Run (Restrict (Step cfg) fun c event => ¬c.Strands cfg event) {} events c := by
  refine Run.restrict_iff (I := fun c => c.directory.WellFormed cfg ∧ c.RoutesOpen) ?_ ?_ ?_
  · exact ⟨wellFormed_init, by intro a s hs; cases hs⟩
  · exact fun t e u ht hstep hopen => ⟨wellFormed_step ht.1 hstep, hopen⟩
  · exact fun t e u ht hstep => routesOpen_iff ht.1 ht.2 hstep

/-- A VM that changes its hardware address after its ARP request leaves its
route behind when it goes, and packets for the address are then sent to nobody. -/
theorem exists_stranded_route : ∃ c : Relay, Reachable {} c ∧ ¬c.RoutesOpen := by
  let events : List Event :=
    [.open, .frame {} 0 (exampleARP [0x52, 0x54, 0, 0, 0, 1]),
      .frame {} 0 (exampleARP [0x52, 0x54, 0, 0, 0, 2]), .close 0]
  refine ⟨({} : Relay).after {} events, ⟨events, run_after (by decide +kernel)⟩, ?_⟩
  intro hopen
  have hactive := (hopen (poolAddress 15) 0 (by decide +kernel)).1
  exact absurd hactive (by decide +kernel)

/-- Every OFFER and ACK names the address its session has and is routed, after
the event. -/
def DHCPRouted (cfg : RelaySettings) (c : Relay) (event : Event) (c' : Relay) : Prop :=
  ∀ s reply, Output.dhcp s reply ∈ (c.handle cfg event).2 →
    (c'.session s).vmIP = some reply.assignedIP ∧
      c'.registry.routeOf reply.assignedIP = some s

/-- A DISCOVER or REQUEST on a session that has an address, for a client whose
lease is not that address routed to that session, unless the pool has nothing to
give it. -/
def Misleads (cfg : RelaySettings) (c : Relay) : Event → Prop
  | .frame _ id data =>
      ∃ message own, c.dhcpMessage cfg id data = some message ∧
        (message.msgType = 1 ∨ message.msgType = 3) ∧ (c.session id).vmIP = some own ∧
        ¬(c.registry.leaseOf message.clientMAC = some own ∧ c.registry.routeOf own = some id) ∧
        ¬(c.registry.leaseOf message.clientMAC = none ∧ c.registry.freeOctet cfg = none)
  | _ => False

theorem mem_answerDHCP {id s : SessionId} {message : DHCPMessage} {ip : Address}
    {reply : DHCPReply} (h : Output.dhcp s reply ∈ answerDHCP id message ip) :
    s = id ∧ reply.assignedIP = ip ∧ (message.msgType = 1 ∨ message.msgType = 3) := by
  unfold answerDHCP at h
  split at h
  · rename_i htype
    cases List.mem_singleton.mp h
    exact ⟨rfl, rfl, .inl htype⟩
  · split at h
    · rename_i htype
      cases List.mem_singleton.mp h
      exact ⟨rfl, rfl, .inr htype⟩
    · cases h

theorem exists_mem_answerDHCP (id : SessionId) {message : DHCPMessage} (ip : Address)
    (h : message.msgType = 1 ∨ message.msgType = 3) :
    ∃ reply, Output.dhcp id reply ∈ answerDHCP id message ip ∧ reply.assignedIP = ip := by
  unfold answerDHCP
  rcases h with htype | htype
  · rw [if_pos htype]
    exact ⟨_, List.mem_singleton_self _, rfl⟩
  · rw [if_neg (by omega), if_pos htype]
    exact ⟨_, List.mem_singleton_self _, rfl⟩

theorem requestedMAC_of_dhcpMessage {id : SessionId} {frame : Bytes} {message : DHCPMessage}
    (h : c.dhcpMessage cfg id frame = some message) :
    c.requestedMAC cfg id frame = some message.clientMAC := by
  have harp : isARP frame = false := by
    cases hcase : isARP frame with
    | false => rfl
    | true =>
        obtain ⟨-, htype, -⟩ := of_decide_eq_true hcase
        unfold dhcpMessage datagramFrom at h
        rw [if_pos (.inr (by rw [htype]; decide))] at h
        cases h
  unfold requestedMAC
  rw [harp, h]
  rfl

/-- Where the address of a DHCP message ends up: with the session, if it had
none, and otherwise nowhere new. -/
theorem directory_after_dhcp (env : Environment) {id : SessionId} {data : Bytes}
    {message : DHCPMessage} {ip : Address} {registry : Registry}
    (hmessage : c.dhcpMessage cfg id data = some message)
    (halloc : c.registry.allocateIP cfg message.clientMAC = .ok (ip, registry)) :
    let d := (c.handle cfg (.frame env id data)).1.directory
    ((c.session id).vmIP = none → d.vmIP id = some ip ∧ d.registry.routeOf ip = some id) ∧
      ∀ own, (c.session id).vmIP = some own →
        d.vmIP id = some own ∧ ∀ a, d.registry.routeOf a = c.registry.routeOf a := by
  intro d
  have hd : d = (c.directory.learnFrom id (sourceMAC data)).request cfg id message.clientMAC := by
    change (c.handle cfg _).1.directory = _
    rw [directory_handle]
    change (c.directory.learnFrom id _).requestFor cfg id (c.requestedMAC cfg id data) = _
    rw [requestedMAC_of_dhcpMessage hmessage]
    rfl
  have halloc' : (c.directory.learnFrom id (sourceMAC data)).registry.allocateIP cfg
      message.clientMAC = .ok (ip, registry) := by
    rw [Directory.learnFrom_registry]
    exact halloc
  constructor
  · intro hnone
    rw [hd, Directory.request_none halloc' (by rw [Directory.learnFrom_vmIP]; exact hnone)]
    refine ⟨Function.update_self _ _ _, ?_⟩
    change (registry.register ip id).routeOf ip = some id
    rw [Registry.routeOf_register, if_pos rfl]
  · intro own hown
    rw [hd, Directory.request_some halloc' (by rw [Directory.learnFrom_vmIP]; exact hown)]
    refine ⟨?_, fun a => Registry.allocateIP_routeOf halloc a⟩
    change (c.directory.learnFrom id (sourceMAC data)).vmIP id = some own
    rw [Directory.learnFrom_vmIP]
    exact hown

/-- A fresh address is routed nowhere yet: octets of routed addresses are in
use. -/
theorem freeOctet_not_routed (hwf : c.directory.WellFormed cfg) {i : Nat}
    (hfree : c.registry.freeOctet cfg = some i) (s : SessionId) :
    c.registry.routeOf (poolAddress i) ≠ some s := by
  intro hroute
  obtain ⟨m, hm⟩ := hwf.tables.routed _ s hroute
  exact (Registry.freeOctet_spec hfree).2.2 ((hwf.tables.used i).mpr (.inr ⟨m, hm⟩))

/-- One step routes what it offers exactly if it does not mislead its client. -/
theorem dhcpRouted_iff (hwf : c.directory.WellFormed cfg) (hstep : Step cfg c event c') :
    c.DHCPRouted cfg event c' ↔ ¬c.Misleads cfg event := by
  obtain ⟨-, rfl⟩ := hstep
  constructor
  · intro hrouted hmisleads
    cases event with
    | frame env id data =>
        obtain ⟨message, own, hmessage, htype, hown, hother, hfull⟩ := hmisleads
        -- some answer is sent, and it would have to name the session's own address
        have hanswered : ∀ ip registry, c.registry.allocateIP cfg message.clientMAC =
            .ok (ip, registry) → own = ip ∧ c.registry.routeOf ip = some id := by
          intro ip registry halloc
          obtain ⟨reply, hmem, rfl⟩ := exists_mem_answerDHCP id ip htype
          obtain ⟨hip, hroute⟩ := hrouted id reply ((dhcp_mem_handle c _).mpr
            ⟨env, id, data, message, _, registry, rfl, hmessage, halloc, hmem⟩)
          obtain ⟨hkept, hroutes⟩ := (directory_after_dhcp env hmessage halloc).2 own hown
          exact ⟨Option.some.inj (hkept.symm.trans hip), (hroutes _).symm.trans hroute⟩
        cases hlease : c.registry.leaseOf message.clientMAC with
        | some a =>
            obtain ⟨rfl, hroute⟩ := hanswered a _ (Registry.allocateIP_of_lease hlease)
            exact hother ⟨hlease, hroute⟩
        | none =>
            cases hfree : c.registry.freeOctet cfg with
            | none => exact hfull ⟨hlease, hfree⟩
            | some i =>
                have halloc := Registry.allocateIP_of_free hlease hfree
                exact freeOctet_not_routed hwf hfree id (hanswered _ _ halloc).2
    | _ => exact hmisleads
  · intro hno s reply hmem
    obtain ⟨env, id, data, message, ip, registry, rfl, hmessage, halloc, hanswer⟩ :=
      (dhcp_mem_handle c event).mp hmem
    obtain ⟨rfl, rfl, htype⟩ := mem_answerDHCP hanswer
    obtain ⟨htaken, hkept⟩ := directory_after_dhcp env hmessage halloc
    cases hown : (c.session s).vmIP with
    | none => exact htaken hown
    | some own =>
        obtain ⟨hip, hroutes⟩ := hkept own hown
        by_cases hlease : c.registry.leaseOf message.clientMAC = some own ∧
            c.registry.routeOf own = some s
        · rw [Registry.allocateIP_of_lease hlease.1] at halloc
          obtain ⟨rfl, -⟩ := Prod.ext_iff.mp (Except.ok.inj halloc)
          exact ⟨hip, (hroutes _).trans hlease.2⟩
        · refine absurd ⟨message, own, hmessage, htype, hown, hlease, ?_⟩ hno
          rintro ⟨hnone, hfull⟩
          rw [Registry.allocateIP_of_full hnone hfull] at halloc
          cases halloc

/-- Every DHCP answer of a run leads to the session it was given to exactly if
no DISCOVER or REQUEST misleads its client. -/
theorem run_dhcpRouted_iff :
    Run (fun c event c' => Step cfg c event c' ∧ c.DHCPRouted cfg event c') {} events c ↔
      Run (Restrict (Step cfg) fun c event => ¬c.Misleads cfg event) {} events c := by
  refine Run.restrict_iff (I := fun c => c.directory.WellFormed cfg) wellFormed_init ?_ ?_
  · exact fun t e u ht hstep _ => wellFormed_step ht hstep
  · exact fun t e u ht hstep => dhcpRouted_iff ht hstep

/-- A DISCOVER of `client`, broadcast in a UDP datagram to port 67 from `mac`.
The two need not be the same. -/
def exampleDiscover (mac client : MAC) : Bytes :=
  List.replicate 6 0xff ++ mac ++ [0x08, 0x00] ++
    [0x45, 0, 1, 15, 0, 0, 0, 0, 64, 17, 0, 0, 0, 0, 0, 0, 255, 255, 255, 255] ++
    [0, 68, 0, 67, 0, 251, 0, 0] ++
    [1, 1, 6, 0, 0, 0, 0, 7] ++ List.replicate 20 0 ++ client ++ List.replicate 202 0 ++
    [0x63, 0x82, 0x53, 0x63] ++ [53, 1, 1]

/-- A VM that has sent an ARP request and then asks for a lease for another
hardware address is offered an address that is not its own. -/
theorem exists_misleading_offer :
    ∃ (c c' : Relay) (event : Event), Reachable {} c ∧ Step {} c event c' ∧
      ¬c.DHCPRouted {} event c' := by
  let events : List Event := [.open, .frame {} 0 (exampleARP [0x52, 0x54, 0, 0, 0, 1])]
  let event : Event :=
    .frame {} 0 (exampleDiscover [0x52, 0x54, 0, 0, 0, 1] [0x52, 0x54, 0, 0, 0, 2])
  refine ⟨({} : Relay).after {} events, _, event, ⟨events, run_after (by decide +kernel)⟩,
    ⟨by decide +kernel, rfl⟩, ?_⟩
  intro hrouted
  have hanswer := (hrouted 0 ⟨7, [0x52, 0x54, 0, 0, 0, 2], 2, poolAddress 16⟩
    (by decide +kernel)).1
  exact absurd hanswer (by decide +kernel)

end Relay

end RootlessRelay
