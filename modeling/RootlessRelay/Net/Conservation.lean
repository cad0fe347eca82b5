import Mathlib.Data.Finset.Card
import RootlessRelay.Net.Routing

/-!
# Conservation of the address pool

The octets in use, the gateway's aside, should be those of the addresses of the
open sessions. An allocation for a session that has an address already takes one
octet too many; a close should give back the address of its session, unless
another open session shares it, and a close that gives back anything else breaks
the balance.

`Unbalances` is the condition on a step, and `conserved_iff` says that it is
exact: a balanced state stays balanced under an action exactly if the action
does not unbalance it. Along a run the balance therefore holds in every state
exactly if no step unbalances it. Nothing is said about the state a run ends in
alone: a later action may restore what an earlier one has broken.
-/

namespace RootlessRelay

open InsertionMap Transition

namespace Directory

variable {cfg : RelaySettings} {d : Directory} {id s : SessionId} {a : Address}
  {action : AddressAction}

/-- The octets in use are the gateway's and those of the open sessions'
addresses; so there are at most as many as open sessions, and none without a
session. -/
structure Conserved (d : Directory) : Prop where
  octets : ∀ i, i ≠ 2 →
    (i ∈ d.registry.usedIPs ↔ ∃ s ∈ d.activeSessions, ∃ a, d.vmIP s = some a ∧ a.d = i)
  single : (d.registry.usedIPs.erase 2).card ≤ d.activeSessions.length
  drained : d.activeSessions = [] → ∀ i ∈ d.registry.usedIPs, i = 2

/-- What a close owes the pool: its session's address, unless another open
session has it too. A session without an address owes nothing. -/
def owed (d : Directory) (id : SessionId) : Option Address :=
  if ∃ t ∈ d.activeSessions, t ≠ id ∧ d.vmIP t = d.vmIP id then none else d.vmIP id

/-- An action that takes an octet for no session, or gives back other than it
owes. It is decided by the tables before the action. -/
def Unbalances (cfg : RelaySettings) (d : Directory) : AddressAction → Prop
  | .frame id _ requested =>
      d.vmIP id ≠ none ∧ ∃ mac i, requested = some mac ∧ d.registry.leaseOf mac = none ∧
        d.registry.freeOctet cfg = some i
  | .close id => d.released id ≠ d.owed id
  | _ => False

/-- Counting octets: the octets in use are those of active sessions, one for
each. -/
theorem Conserved.of_octets (h : ∀ i, i ≠ 2 →
    (i ∈ d.registry.usedIPs ↔ ∃ s ∈ d.activeSessions, ∃ a, d.vmIP s = some a ∧ a.d = i)) :
    Conserved d := by
  refine ⟨h, ?_, ?_⟩
  · let octet : SessionId → Nat := fun s => ((d.vmIP s).map Address.d).getD 2
    have hsub : d.registry.usedIPs.erase 2 ⊆ (d.activeSessions.map octet).toFinset := by
      intro i hi
      obtain ⟨htwo, hused⟩ := Finset.mem_erase.mp hi
      obtain ⟨s, hs, a, hip, hd⟩ := (h i htwo).mp hused
      refine List.mem_toFinset.mpr (List.mem_map.mpr ⟨s, hs, ?_⟩)
      simp [octet, hip, hd]
    calc (d.registry.usedIPs.erase 2).card
        ≤ (d.activeSessions.map octet).toFinset.card := Finset.card_le_card hsub
      _ ≤ (d.activeSessions.map octet).length := List.toFinset_card_le _
      _ = d.activeSessions.length := List.length_map _
  · intro hnil i hi
    by_contra htwo
    obtain ⟨s, hs, -⟩ := (h i htwo).mp hi
    rw [hnil] at hs
    cases hs

/-- A session's address is known by its last octet, since all addresses come
from the pool. -/
theorem WellFormed.octet_iff (h : WellFormed cfg d) (s : SessionId) (i : Nat) :
    (∃ a, d.vmIP s = some a ∧ a.d = i) ↔ d.vmIP s = some (poolAddress i) := by
  constructor
  · rintro ⟨a, hip, rfl⟩
    obtain ⟨j, -, rfl⟩ := h.pool s a hip
    exact hip
  · exact fun hip => ⟨poolAddress i, hip, rfl⟩

/-- A leased octet is in use, and is not the gateway's. A close thus never frees
the octet that is in use from the start. -/
theorem WellFormed.released_pool (h : WellFormed cfg d) (hreleased : d.released id = some a) :
    ∃ i, i ≠ 2 ∧ a = poolAddress i ∧ i ∈ d.registry.usedIPs := by
  unfold released at hreleased
  split at hreleased
  · cases hreleased
  · rename_i mac _
    obtain ⟨i, -, -, htwo, rfl⟩ := h.tables.pool mac a hreleased
    exact ⟨i, htwo, rfl, (h.tables.used i).mpr (.inr ⟨mac, hreleased⟩)⟩

/-- Closing a session frees the octet of the lease that it releases, and no
other one. -/
theorem WellFormed.mem_usedIPs_close (h : WellFormed cfg d) (id : SessionId) (i : Nat) :
    i ∈ (d.close id).registry.usedIPs ↔
      i ∈ d.registry.usedIPs ∧ d.released id ≠ some (poolAddress i) := by
  cases hmac : d.vmMAC id with
  | none => simp [close_registry_none hmac, released, hmac]
  | some mac =>
      have hreleased : d.released id = d.registry.leaseOf mac := by
        unfold released
        rw [hmac]
      rw [close_registry_some hmac, hreleased]
      cases hlease : d.registry.leaseOf mac with
      | none => simp [Registry.releaseIP_of_none hlease]
      | some a =>
          obtain ⟨j, -, -, -, rfl⟩ := h.tables.pool mac a hlease
          rw [Registry.usedIPs_releaseIP hlease, Finset.mem_erase, Ne, Ne, Option.some.injEq,
            poolAddress_inj, and_comm, eq_comm]
          rfl

/-- The octets in use are those of the open sessions' addresses, read octet by
octet. -/
theorem Conserved.mem_usedIPs (h : Conserved d) (hwf : WellFormed cfg d) {i : Nat} (htwo : i ≠ 2) :
    i ∈ d.registry.usedIPs ↔ ∃ s ∈ d.activeSessions, d.vmIP s = some (poolAddress i) := by
  simp only [h.octets i htwo, hwf.octet_iff]

theorem mem_activeSessions_close :
    s ∈ (d.close id).activeSessions ↔ s ∈ d.activeSessions ∧ s ≠ id := by
  change s ∈ d.activeSessions.filter (· ≠ id) ↔ _
  rw [List.mem_filter, decide_eq_true_iff]

theorem owed_eq_some :
    d.owed id = some a ↔
      d.vmIP id = some a ∧ ∀ t ∈ d.activeSessions, t ≠ id → d.vmIP t ≠ some a := by
  unfold owed
  split
  · rename_i hshared
    obtain ⟨t, ht, hne, hsame⟩ := hshared
    refine ⟨nofun, fun ⟨hip, hlone⟩ => ?_⟩
    exact absurd (hsame.trans hip) (hlone t ht hne)
  · rename_i hlone
    refine ⟨fun hip => ⟨hip, fun t ht hne hsame => ?_⟩, And.left⟩
    exact hlone ⟨t, ht, hne, hsame.trans hip.symm⟩

/-- A balanced close keeps the balance, and only a balanced one does: what is
given back and not owed is missing, and what is owed and not given back leaks. -/
theorem Conserved.close_iff (h : Conserved d) (hwf : WellFormed cfg d)
    (hid : id ∈ d.activeSessions) :
    Conserved (d.close id) ↔ d.released id = d.owed id := by
  constructor
  · intro hafter
    have hoctets : ∀ i, i ≠ 2 → (i ∈ d.registry.usedIPs ∧ d.released id ≠ some (poolAddress i) ↔
        ∃ s, (s ∈ d.activeSessions ∧ s ≠ id) ∧ d.vmIP s = some (poolAddress i)) := by
      intro i htwo
      rw [← hwf.mem_usedIPs_close, hafter.mem_usedIPs (hwf.close id) htwo]
      simp only [mem_activeSessions_close]
      rfl
    refine Option.ext fun a => ?_
    rw [owed_eq_some]
    constructor
    · intro hreleased
      obtain ⟨i, htwo, rfl, hused⟩ := hwf.released_pool hreleased
      -- an address given back is no other open session's
      have hlone : ∀ t ∈ d.activeSessions, t ≠ id → d.vmIP t ≠ some (poolAddress i) :=
        fun t ht hne hip => ((hoctets i htwo).mpr ⟨t, ⟨ht, hne⟩, hip⟩).2 hreleased
      refine ⟨?_, hlone⟩
      obtain ⟨s, hs, hip⟩ := (h.mem_usedIPs hwf htwo).mp hused
      by_cases hne : s = id
      · exact hne ▸ hip
      · exact absurd hip (hlone s hs hne)
    · rintro ⟨hip, hlone⟩
      obtain ⟨i, htwo, rfl⟩ := hwf.pool id a hip
      have hused : i ∈ d.registry.usedIPs := (h.mem_usedIPs hwf htwo).mpr ⟨id, hid, hip⟩
      by_contra hkept
      obtain ⟨s, ⟨hs, hne⟩, hs'⟩ := (hoctets i htwo).mp ⟨hused, hkept⟩
      exact hlone s hs hne hs'
  · intro hbalanced
    refine .of_octets fun i htwo => ?_
    rw [hwf.mem_usedIPs_close, h.mem_usedIPs hwf htwo, hbalanced]
    simp only [mem_activeSessions_close, (hwf.close id).octet_iff]
    change _ ↔ ∃ s, (s ∈ d.activeSessions ∧ s ≠ id) ∧ d.vmIP s = some (poolAddress i)
    constructor
    · rintro ⟨⟨s, hs, hip⟩, howed⟩
      by_cases hne : s = id
      · subst hne
        by_contra hlone
        exact howed (owed_eq_some.mpr ⟨hip, fun t ht hne hip' => hlone ⟨t, ⟨ht, hne⟩, hip'⟩⟩)
      · exact ⟨s, ⟨hs, hne⟩, hip⟩
    · rintro ⟨s, ⟨hs, hne⟩, hip⟩
      exact ⟨⟨s, hs, hip⟩, fun howed => (owed_eq_some.mp howed).2 s hs hne hip⟩

/-- An allocation keeps the balance exactly if it takes no octet for a session
that has an address. -/
theorem Conserved.frame_iff (h : Conserved d) (hwf : WellFormed cfg d)
    (hid : id ∈ d.activeSessions) (srcMAC requested : Option MAC) :
    Conserved (d.apply cfg (.frame id srcMAC requested)) ↔
      ¬d.Unbalances cfg (.frame id srcMAC requested) := by
  have hafter : WellFormed cfg (d.apply cfg (.frame id srcMAC requested)) := hwf.apply hid
  constructor
  · rintro hkept ⟨hown, mac, i, rfl, hlease, hfree⟩
    obtain ⟨own, hown⟩ := Option.ne_none_iff_exists'.mp hown
    have heq : d.apply cfg (.frame id srcMAC (some mac)) =
        { d.learnFrom id srcMAC with registry := d.registry.lease mac i } :=
      request_some (by rw [learnFrom_registry]; exact Registry.allocateIP_of_free hlease hfree)
        (by rw [learnFrom_vmIP]; exact hown)
    have hunused := (Registry.freeOctet_spec hfree).2.2
    have htwo : i ≠ 2 := fun hi => hunused ((hwf.tables.used i).mpr (.inl hi))
    rw [heq] at hkept hafter
    obtain ⟨s, hs, hip⟩ := (hkept.mem_usedIPs hafter htwo).mp (Finset.mem_insert_self i _)
    simp only [learnFrom_vmIP, learnFrom_activeSessions] at hs hip
    exact hunused ((h.mem_usedIPs hwf htwo).mpr ⟨s, hs, hip⟩)
  · intro hno
    refine .of_octets fun i htwo => ?_
    simp only [hafter.octet_iff]
    rcases apply_frame_cases cfg d id srcMAC requested with
      heq | ⟨mac, ip, registry, own, rfl, hown, halloc, heq⟩ |
        ⟨mac, ip, registry, rfl, hnone, halloc, heq⟩ <;> rw [heq]
    · simpa using h.mem_usedIPs hwf htwo
    · rcases Registry.allocateIP_cases halloc with
        ⟨_, _, hok⟩ | ⟨hlease, j, hfree, hok⟩ | ⟨_, _, hok⟩ <;> cases hok
      · simpa using h.mem_usedIPs hwf htwo
      · exact absurd ⟨by rw [hown]; simp, mac, j, rfl, hlease, hfree⟩ hno
    · change i ∈ registry.usedIPs ↔ ∃ s ∈ (d.learnFrom id srcMAC).activeSessions,
        Function.update (d.learnFrom id srcMAC).vmIP id (some ip) s = some (poolAddress i)
      simp only [learnFrom_vmIP, learnFrom_activeSessions, Function.update_apply]
      -- the session's new address is the one the allocation leaves leased
      have hused : i ∈ registry.usedIPs ↔ ip = poolAddress i ∨ i ∈ d.registry.usedIPs := by
        rcases Registry.allocateIP_cases halloc with
          ⟨_, hlease, hok⟩ | ⟨hlease, j, hfree, hok⟩ | ⟨_, _, hok⟩ <;> cases hok
        · refine ⟨.inr, ?_⟩
          rintro (rfl | hused)
          · exact (hwf.tables.used i).mpr (.inr ⟨mac, hlease⟩)
          · exact hused
        · rw [poolAddress_inj, eq_comm]
          exact Finset.mem_insert
      rw [hused, h.mem_usedIPs hwf htwo]
      constructor
      · rintro (rfl | ⟨s, hs, hip⟩)
        · exact ⟨id, hid, if_pos rfl⟩
        · have hne : s ≠ id := by
            rintro rfl
            rw [hnone] at hip
            cases hip
          exact ⟨s, hs, by rw [if_neg hne]; exact hip⟩
      · rintro ⟨s, hs, hip⟩
        split at hip
        · exact .inl (Option.some.inj hip)
        · exact .inr ⟨s, hs, hip⟩

/-- Opening a session takes nothing from the pool, since the session has no
address yet. -/
theorem Conserved.connect (h : Conserved d) (hwf : WellFormed cfg d) : Conserved d.connect := by
  refine .of_octets fun i htwo => ?_
  change i ∈ d.registry.usedIPs ↔ ∃ s ∈ d.activeSessions ++ [d.nextSession], ∃ a,
    Function.update d.vmIP d.nextSession none s = some a ∧ a.d = i
  rw [h.octets i htwo]
  simp only [Function.update_apply]
  constructor
  · rintro ⟨s, hs, a, hip, hd⟩
    have hne : s ≠ d.nextSession := by
      rintro rfl
      rw [hwf.fresh _ le_rfl] at hip
      cases hip
    exact ⟨s, List.mem_append_left _ hs, a, by rw [if_neg hne]; exact hip, hd⟩
  · rintro ⟨s, hs, a, hip, hd⟩
    split at hip
    · cases hip
    · rename_i hne
      rcases List.mem_append.mp hs with hold | hnew
      · exact ⟨s, hold, a, hip, hd⟩
      · exact absurd (List.mem_singleton.mp hnew) hne

theorem Conserved.apply_iff (h : Conserved d) (hwf : WellFormed cfg d)
    (henabled : d.enabled action) :
    Conserved (d.apply cfg action) ↔ ¬d.Unbalances cfg action := by
  cases action with
  | idle => exact iff_of_true h id
  | connect => exact iff_of_true (h.connect hwf) id
  | frame id srcMAC requested => exact h.frame_iff hwf henabled srcMAC requested
  | close id => exact (h.close_iff hwf henabled).trans not_not.symm

end Directory

namespace Relay

variable {cfg : RelaySettings} {c c' : Relay} {event : Event} {events : List Event}

/-- The octets in use are those of the addresses of the open sessions. -/
def Conserved (c : Relay) : Prop := c.directory.Conserved

/-- The event takes an octet for no session, or gives back other than it owes. -/
def Unbalances (cfg : RelaySettings) (c : Relay) (event : Event) : Prop :=
  c.directory.Unbalances cfg (c.addressAction cfg event)

theorem conserved_iff (hwf : c.directory.WellFormed cfg) (h : c.Conserved)
    (hstep : Step cfg c event c') : c'.Conserved ↔ ¬c.Unbalances cfg event := by
  obtain ⟨henabled, rfl⟩ := hstep
  unfold Conserved Unbalances
  rw [directory_handle]
  exact Directory.Conserved.apply_iff h hwf (enabled_directory cfg henabled)

/-- Along a run the pool is conserved exactly if no step unbalances it: no octet
is allocated for a session that has an address, and every close gives back what
it owes. -/
theorem run_conserved_iff :
    Run (fun c event c' => Step cfg c event c' ∧ c'.Conserved) {} events c ↔
      Run (Restrict (Step cfg) fun c event => ¬c.Unbalances cfg event) {} events c := by
  refine Run.restrict_iff (I := fun c => c.directory.WellFormed cfg ∧ c.Conserved) ?_ ?_ ?_
  · refine ⟨wellFormed_init, .of_octets fun i htwo => ?_⟩
    change i ∈ ({2} : Finset Nat) ↔ ∃ s ∈ ([] : List SessionId), _
    simp [htwo]
  · exact fun t e u ht hstep hkept => ⟨wellFormed_step ht.1 hstep, hkept⟩
  · exact fun t e u ht hstep => conserved_iff ht.1 ht.2 hstep

/-- A client asking on a session that has an address takes an octet that no
session has, and that no close gives back. -/
theorem exists_leaked_octet : ∃ c : Relay, Reachable {} c ∧ ¬c.Conserved := by
  let events : List Event :=
    [.open, .frame {} 0 (exampleARP [0x52, 0x54, 0, 0, 0, 1]),
      .frame {} 0 (exampleDiscover [0x52, 0x54, 0, 0, 0, 1] [0x52, 0x54, 0, 0, 0, 2]), .close 0]
  refine ⟨({} : Relay).after {} events, ⟨events, run_after (by decide +kernel)⟩, ?_⟩
  intro hkept
  have hused := hkept.drained (by decide +kernel) 16 (by decide +kernel)
  cases hused

end Relay

end RootlessRelay
