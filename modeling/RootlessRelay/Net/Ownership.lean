import RootlessRelay.Net.AddressInvariant

/-!
# Addresses that stay their sessions' own

A session owns its address while the address is routed to it. Two branches of
the relay disregard ownership: a session without an address may be given the one
leased to a hardware address another session uses, and a closing session gives
back whatever its last hardware address holds. Runs that take neither keep every
owner.

`Intrudes` names these branches as a condition on an action and the directory
before it. It is exact for each step of a relay whose owners are in place, and
so for runs: nobody is disturbed by any step exactly if no step intrudes. The
invariant that carries this is `Owned`.
-/

namespace RootlessRelay

open InsertionMap Transition

namespace Directory

variable {cfg : RelaySettings} {d d' : Directory} {id s : SessionId} {mac m : MAC}
  {ip a : Address} {registry : Registry} {action : AddressAction}

/-- An action that takes an address from an open session, or takes the
gateway's. It is decided by the tables before the action. -/
def Intrudes (cfg : RelaySettings) (d : Directory) : AddressAction → Prop
  | .frame id _ requested =>
      d.vmIP id = none ∧ ∃ mac, requested = some mac ∧
        ((∃ a, d.registry.leaseOf mac = some a ∧
            (a = cfg.GATEWAY_IP ∨ ∃ s ∈ d.activeSessions, d.registry.routeOf a = some s)) ∨
          (d.registry.leaseOf mac = none ∧
            ∃ i, d.registry.freeOctet cfg = some i ∧ poolAddress i = cfg.GATEWAY_IP))
  | .close id =>
      ∃ mac a s, d.vmMAC id = some mac ∧ d.registry.leaseOf mac = some a ∧
        s ∈ d.activeSessions ∧ s ≠ id ∧ d.registry.routeOf a = some s
  | _ => False

/-- Every open session with an address is the one the address is routed to, and
none of them has the gateway's. -/
structure Owned (cfg : RelaySettings) (d : Directory) : Prop extends WellFormed cfg d where
  anchored : ∀ s ∈ d.activeSessions, ∀ a, d.vmIP s = some a → d.registry.routeOf a = some s
  gateway : ∀ s ∈ d.activeSessions, d.vmIP s ≠ some cfg.GATEWAY_IP

/-- What an action leaves alone: open sessions have distinct addresses, none of
them the gateway's, and the entries of an address held by another open session
remain. -/
structure Undisturbed (cfg : RelaySettings) (d : Directory) (action : AddressAction)
    (d' : Directory) : Prop where
  distinct : ∀ s ∈ d'.activeSessions, ∀ t ∈ d'.activeSessions, ∀ a,
    d'.vmIP s = some a → d'.vmIP t = some a → s = t
  gateway : ∀ s ∈ d'.activeSessions, d'.vmIP s ≠ some cfg.GATEWAY_IP
  kept : ∀ s ∈ d.activeSessions, ∀ a, d.vmIP s = some a → d.registry.routeOf a = some s →
    action ≠ .close s →
      d'.registry.routeOf a = some s ∧
      (∀ m, d.registry.leaseOf m = some a → d'.registry.leaseOf m = some a) ∧
      a.d ∈ d'.registry.usedIPs

/-- An address an unobtrusive frame gives its session is free, and not the
gateway's. It may still be leased to a hardware address that no open session
has. -/
theorem Owned.allocated_free {srcMAC : Option MAC} (h : Owned cfg d) (hnone : d.vmIP id = none)
    (hno : ¬d.Intrudes cfg (.frame id srcMAC (some mac)))
    (halloc : d.registry.allocateIP cfg mac = .ok (ip, registry)) :
    ip ≠ cfg.GATEWAY_IP ∧ ∀ s ∈ d.activeSessions, d.registry.routeOf ip ≠ some s := by
  rcases Registry.allocateIP_cases halloc with
    ⟨_, hlease, heq⟩ | ⟨hlease, i, hfree, heq⟩ | ⟨_, _, heq⟩
  · cases heq
    refine ⟨?_, ?_⟩
    · exact fun hgateway => hno ⟨hnone, mac, rfl, .inl ⟨ip, hlease, .inl hgateway⟩⟩
    · exact fun s hs hroute => hno ⟨hnone, mac, rfl, .inl ⟨ip, hlease, .inr ⟨s, hs, hroute⟩⟩⟩
  · cases heq
    refine ⟨?_, ?_⟩
    · exact fun hgateway => hno ⟨hnone, mac, rfl, .inr ⟨hlease, i, hfree, hgateway⟩⟩
    · intro s _ hroute
      obtain ⟨m, hm⟩ := h.tables.routed _ s hroute
      exact (Registry.freeOctet_spec hfree).2.2 ((h.tables.used i).mpr (.inr ⟨m, hm⟩))
  · cases heq

/-- Unobtrusive actions keep every owner: the step lemma, with one case for each
action. -/
theorem Owned.apply (h : Owned cfg d) (henabled : d.enabled action)
    (hno : ¬d.Intrudes cfg action) : Owned cfg (d.apply cfg action) := by
  refine { h.toWellFormed.apply henabled with anchored := ?_, gateway := ?_ }
  · intro s hs a hip
    cases action with
    | idle => exact h.anchored s hs a hip
    | connect =>
        change Function.update d.vmIP d.nextSession none s = some a at hip
        rw [Function.update_apply] at hip
        split at hip
        · cases hip
        · rename_i hne
          rcases List.mem_append.mp hs with hold | hnew
          · exact h.anchored s hold a hip
          · exact absurd (List.mem_singleton.mp hnew) hne
    | close id =>
        obtain ⟨hactive, hne⟩ := List.mem_filter.mp hs
        have hroute := h.anchored s hactive a hip
        change (d.close id).registry.routeOf a = some s
        cases hmac : d.vmMAC id with
        | none =>
            rw [close_registry_none hmac]
            exact hroute
        | some mac =>
            rw [close_registry_some hmac]
            cases hlease : d.registry.leaseOf mac with
            | none =>
                rw [Registry.releaseIP_of_none hlease]
                exact hroute
            | some ip =>
                have hkeep : ip ≠ a := by
                  rintro rfl
                  exact hno ⟨mac, ip, s, hmac, hlease, hactive, by simpa using hne, hroute⟩
                rw [Registry.routeOf_releaseIP hlease, if_neg hkeep]
                exact hroute
    | frame id srcMAC requested =>
        rcases apply_frame_cases cfg d id srcMAC requested with
          heq | ⟨mac, ip, registry, own, -, -, halloc, heq⟩ |
            ⟨mac, ip, registry, rfl, hnone, halloc, heq⟩ <;> rw [heq] at hs hip ⊢
        · simp only [learnFrom_vmIP, learnFrom_registry, learnFrom_activeSessions] at *
          exact h.anchored s hs a hip
        · simp only [learnFrom_vmIP, learnFrom_activeSessions] at hs hip ⊢
          rw [Registry.allocateIP_routeOf halloc]
          exact h.anchored s hs a hip
        · obtain ⟨-, hfree⟩ := h.allocated_free hnone hno halloc
          change s ∈ (d.learnFrom id srcMAC).activeSessions at hs
          change Function.update (d.learnFrom id srcMAC).vmIP id (some ip) s = some a at hip
          change (registry.register ip id).routeOf a = some s
          rw [learnFrom_activeSessions] at hs
          rw [learnFrom_vmIP, Function.update_apply] at hip
          rw [Registry.routeOf_register, Registry.allocateIP_routeOf halloc]
          split at hip
          · rename_i hid
            rw [if_pos (Option.some.inj hip), hid]
          · have hroute := h.anchored s hs a hip
            have hne : ip ≠ a := by
              rintro rfl
              exact hfree s hs hroute
            rw [if_neg hne]
            exact hroute
  · intro s hs
    cases action with
    | idle => exact h.gateway s hs
    | close id => exact h.gateway s (List.mem_filter.mp hs).1
    | connect =>
        change Function.update d.vmIP d.nextSession none s ≠ _
        rw [Function.update_apply]
        split
        · simp
        · rename_i hne
          rcases List.mem_append.mp hs with hold | hnew
          · exact h.gateway s hold
          · exact absurd (List.mem_singleton.mp hnew) hne
    | frame id srcMAC requested =>
        rcases apply_frame_cases cfg d id srcMAC requested with
          heq | ⟨mac, ip, registry, own, -, -, -, heq⟩ |
            ⟨mac, ip, registry, rfl, hnone, halloc, heq⟩ <;> rw [heq] at hs ⊢
        · simp only [learnFrom_vmIP, learnFrom_activeSessions] at *
          exact h.gateway s hs
        · simp only [learnFrom_vmIP, learnFrom_activeSessions] at hs ⊢
          exact h.gateway s hs
        · change s ∈ (d.learnFrom id srcMAC).activeSessions at hs
          change Function.update (d.learnFrom id srcMAC).vmIP id (some ip) s ≠ _
          rw [learnFrom_activeSessions] at hs
          rw [learnFrom_vmIP, Function.update_apply]
          split
          · exact fun hip => (h.allocated_free hnone hno halloc).1 (Option.some.inj hip)
          · exact h.gateway s hs

variable (cfg) in
/-- A session stays active until it is closed itself. -/
theorem mem_activeSessions_apply (hs : s ∈ d.activeSessions) (hne : action ≠ .close s) :
    s ∈ (d.apply cfg action).activeSessions := by
  cases action with
  | idle => exact hs
  | connect => exact List.mem_append_left _ hs
  | close id =>
      refine List.mem_filter.mpr ⟨hs, ?_⟩
      have hid : s ≠ id := fun h => hne (by rw [h])
      simpa using hid
  | frame id srcMAC requested =>
      rcases apply_frame_cases cfg d id srcMAC requested with
        heq | ⟨_, _, _, _, -, -, -, heq⟩ | ⟨_, _, _, -, -, -, heq⟩ <;> rw [heq]
      · simpa using hs
      · simpa using hs
      · change s ∈ (d.learnFrom id srcMAC).activeSessions
        simpa using hs

/-- Only a close takes a lease away, and only the one of the session's last
hardware address. Frames add leases and change none. -/
theorem leaseOf_apply (hlease : d.registry.leaseOf m = some a)
    (hclose : ∀ id, action = .close id → d.vmMAC id ≠ some m) :
    (d.apply cfg action).registry.leaseOf m = some a := by
  cases action with
  | idle => exact hlease
  | connect => exact hlease
  | close id =>
      change (d.close id).registry.leaseOf m = some a
      have hne := hclose id rfl
      cases hmac : d.vmMAC id with
      | none =>
          rw [close_registry_none hmac]
          exact hlease
      | some mac =>
          rw [hmac] at hne
          rw [close_registry_some hmac, Registry.leaseOf_releaseIP, if_neg fun h => hne (congrArg some h)]
          exact hlease
  | frame id srcMAC requested =>
      rcases apply_frame_cases cfg d id srcMAC requested with
        heq | ⟨_, _, _, _, -, -, halloc, heq⟩ | ⟨_, _, _, -, -, halloc, heq⟩ <;> rw [heq]
      · rw [learnFrom_registry]
        exact hlease
      · exact Registry.allocateIP_leaseOf_of_some halloc hlease
      · have hkept := Registry.allocateIP_leaseOf_of_some halloc hlease
        exact hkept

/-- Unobtrusive actions disturb nobody: the invariant holds after them, and the
entries of the other sessions remain. -/
theorem Owned.undisturbed (h : Owned cfg d) (henabled : d.enabled action)
    (hno : ¬d.Intrudes cfg action) : d.Undisturbed cfg action (d.apply cfg action) := by
  have hafter := h.apply henabled hno
  refine ⟨?_, hafter.gateway, ?_⟩
  · intro s hs t ht a hip hip'
    have hsame := (hafter.anchored s hs a hip).symm.trans (hafter.anchored t ht a hip')
    exact Option.some.inj hsame
  · intro s hs a hip hroute hne
    have hactive := mem_activeSessions_apply cfg hs hne
    have hleases : ∀ m, d.registry.leaseOf m = some a →
        (d.apply cfg action).registry.leaseOf m = some a := by
      intro m hm
      refine leaseOf_apply hm ?_
      rintro id rfl hmac
      have hid : s ≠ id := fun hid => hne (by rw [hid])
      exact hno ⟨m, a, s, hmac, hm, hs, hid, hroute⟩
    obtain ⟨m, hm⟩ := h.tables.routed a s hroute
    obtain ⟨i, -, rfl⟩ := h.pool s a hip
    exact ⟨hafter.anchored s hactive _ (h.apply_vmIP action hip), hleases,
      (hafter.tables.used i).mpr (.inr ⟨m, hleases m hm⟩)⟩

/-- Every intrusion disturbs some session, so the condition leaves out nothing
that would be harmless. -/
theorem Owned.disturbed (h : Owned cfg d) (henabled : d.enabled action)
    (hintrudes : d.Intrudes cfg action) : ¬d.Undisturbed cfg action (d.apply cfg action) := by
  intro hcalm
  cases action with
  | idle => exact hintrudes
  | connect => exact hintrudes
  | close id =>
      obtain ⟨mac, a, s, hmac, hlease, hs, hne, hroute⟩ := hintrudes
      have hclose : AddressAction.close id ≠ .close s := fun h => hne (AddressAction.close.inj h).symm
      have hkept := (hcalm.kept s hs a (h.routes a s hroute) hroute hclose).2.1 mac hlease
      change (d.close id).registry.leaseOf mac = some a at hkept
      rw [close_registry_some hmac, Registry.leaseOf_releaseIP, if_pos rfl] at hkept
      cases hkept
  | frame id srcMAC requested =>
      obtain ⟨hnone, mac, rfl, hbranch⟩ := hintrudes
      -- the session takes whatever address the allocation returns
      have htaken : ∀ ip registry, d.registry.allocateIP cfg mac = .ok (ip, registry) →
          (d.apply cfg (.frame id srcMAC (some mac))).vmIP id = some ip ∧
          (d.apply cfg (.frame id srcMAC (some mac))).registry.routeOf ip = some id := by
        intro ip registry halloc
        have heq : d.apply cfg (.frame id srcMAC (some mac)) =
            { d.learnFrom id srcMAC with registry := registry }.assign id ip :=
          request_none (by rw [learnFrom_registry]; exact halloc)
            (by rw [learnFrom_vmIP]; exact hnone)
        rw [heq]
        refine ⟨Function.update_self _ _ _, ?_⟩
        change (registry.register ip id).routeOf ip = some id
        rw [Registry.routeOf_register, if_pos rfl]
      have hactive : id ∈ (d.apply cfg (.frame id srcMAC (some mac))).activeSessions :=
        mem_activeSessions_apply cfg henabled (by simp)
      rcases hbranch with ⟨a, hlease, hclaimed⟩ | ⟨hlease, i, hfree, hgateway⟩
      · obtain ⟨hip, hrouted⟩ := htaken a d.registry (Registry.allocateIP_of_lease hlease)
        rcases hclaimed with rfl | ⟨s, hs, hroute⟩
        · exact hcalm.gateway id hactive hip
        · have hkept := (hcalm.kept s hs a (h.routes a s hroute) hroute (by simp)).1
          obtain rfl := Option.some.inj (hkept.symm.trans hrouted)
          rw [h.routes a s hroute] at hnone
          cases hnone
      · obtain ⟨hip, -⟩ := htaken _ _ (Registry.allocateIP_of_free hlease hfree)
        rw [hgateway] at hip
        exact hcalm.gateway id hactive hip

end Directory

namespace Relay

variable {cfg : RelaySettings} {c c' : Relay} {event : Event} {events : List Event}

/-- The event takes an address from an open session, or the gateway's, through
its address action. -/
def Intrudes (cfg : RelaySettings) (c : Relay) (event : Event) : Prop :=
  c.directory.Intrudes cfg (c.addressAction cfg event)

/-- The event leaves the addresses of the open sessions alone. -/
def Undisturbed (cfg : RelaySettings) (c : Relay) (event : Event) (c' : Relay) : Prop :=
  c.directory.Undisturbed cfg (c.addressAction cfg event) c'.directory

theorem owned_init : ({} : Relay).directory.Owned cfg :=
  { wellFormed_init with
    anchored := by intro s hs; cases hs
    gateway := by intro s hs; cases hs }

/-- A step of a relay whose owners are in place disturbs none of them exactly if
it does not intrude. -/
theorem undisturbed_iff (h : c.directory.Owned cfg) (hstep : Step cfg c event c') :
    c.Undisturbed cfg event c' ↔ ¬c.Intrudes cfg event := by
  obtain ⟨henabled, rfl⟩ := hstep
  have henabled := enabled_directory cfg henabled
  unfold Undisturbed Intrudes
  rw [directory_handle]
  constructor
  · exact fun hcalm hintrudes => h.disturbed henabled hintrudes hcalm
  · exact h.undisturbed henabled

/-- A run keeps every address with its session exactly if none of its steps
intrudes: no session without an address is given one that is leased and routed
to another open session, or the gateway's, and no closing session's last
hardware address holds the address of another open session. -/
theorem run_undisturbed_iff :
    Run (fun c event c' => Step cfg c event c' ∧ c.Undisturbed cfg event c') {} events c ↔
      Run (Restrict (Step cfg) fun c event => ¬c.Intrudes cfg event) {} events c := by
  refine Run.restrict_iff (I := fun c => c.directory.Owned cfg) owned_init ?_ ?_
  · intro t e u ht hstep hcalm
    have hno := (undisturbed_iff ht hstep).mp hcalm
    obtain ⟨henabled, rfl⟩ := hstep
    rw [directory_handle]
    exact ht.apply (enabled_directory cfg henabled) hno
  · exact fun t e u ht hstep => undisturbed_iff ht hstep

/-- Two sessions whose VMs have the same hardware address: the second is given
the address of the first, and its route with it. -/
theorem exists_disturbed_owner :
    ∃ (c c' : Relay) (events : List Event) (event : Event), Run (Step {}) {} events c ∧
      Step {} c event c' ∧ ¬c.Undisturbed {} event c' := by
  let mac : MAC := [0x52, 0x54, 0, 0, 0, 1]
  let events : List Event := [.open, .open, .frame {} 0 (exampleARP mac)]
  let event : Event := .frame {} 1 (exampleARP mac)
  refine ⟨({} : Relay).after {} events, (({} : Relay).after {} events).handle {} event |>.1,
    events, event, run_after (by decide +kernel), ⟨by decide +kernel, rfl⟩, ?_⟩
  intro hcalm
  have hkept := (hcalm.kept 0 (by decide +kernel) (poolAddress 15) (by decide +kernel)
    (by decide +kernel) (by rintro ⟨⟩)).1
  exact absurd hkept (by decide +kernel)

end Relay

end RootlessRelay
